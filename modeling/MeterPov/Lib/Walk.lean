import Mathlib

/-! Walks that follow one link from each place.

Over finitely many places such a walk has seen all it will ever see after as many steps as there are
places, whether or not it ends. -/

set_option autoImplicit false

namespace MeterPov.Lib

variable {Place : Type} (next : Place → Option Place)

def walk : Nat → Place → Option Place
  | 0, place => some place
  | steps + 1, place => (next place).bind (walk steps)

variable {next}

theorem walk_add (first second : Nat) (place : Place) :
    walk next (first + second) place = (walk next first place).bind (walk next second) := by
  induction first generalizing place with
  | zero => simp [walk]
  | succ first ih =>
    rw [Nat.succ_add]
    cases link : next place with
    | none => simp [walk, link]
    | some up => simpa [walk, link] using ih up

theorem walk_left {steps earlier start place} (reached : walk next steps start = some place) (before : earlier < steps) : ∃ left up, walk next earlier start = some left ∧ next left = some up := by
  obtain ⟨rest, rfl⟩ := Nat.exists_eq_add_of_lt before
  rw [add_assoc, walk_add] at reached
  cases passed : walk next earlier start with
  | none => simp [passed] at reached
  | some left =>
    cases link : next left with
    | none => simp [passed, walk, link] at reached
    | some up => exact ⟨left, up, rfl, link⟩

theorem walk_within {count links} (bounded : ∀ place up, links place = some up → place < count)
    {steps start place} (reached : walk links steps start = some place) :
    ∃ fewer ≤ count, walk links fewer start = some place := by
  induction steps using Nat.strong_induction_on with
  | _ steps ih =>
    by_cases short : steps ≤ count
    · exact ⟨steps, short, reached⟩
    · -- among the first places two are the same, and the steps between them can be left out
      have seen : ∀ earlier : Fin (count + 1), ∃ left : Fin count, walk links earlier start = some left.val := by
        intro earlier
        obtain ⟨left, up, passed, link⟩ := walk_left reached (show earlier.val < steps by omega)
        exact ⟨⟨left, bounded left up link⟩, passed⟩
      choose left passed using seen
      obtain ⟨first, second, apart, same⟩ := Fintype.exists_ne_map_eq_of_card_lt left (by simp)
      have shortcut : ∀ low high : Fin (count + 1), low < high → left low = left high →
          ∃ fewer ≤ count, walk links fewer start = some place := by
        intro low high order meets
        obtain ⟨rest, total⟩ := Nat.exists_eq_add_of_le (show high.val ≤ steps by omega)
        apply ih (low.val + rest) (by omega)
        rw [total, walk_add, passed high, ← meets] at reached
        rw [walk_add, passed low]
        exact reached
      rcases lt_or_gt_of_ne apart with order | order
      · exact shortcut first second order same
      · exact shortcut second first order same.symm

end MeterPov.Lib
