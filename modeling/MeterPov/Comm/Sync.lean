import MeterPov.Lib.Action

/-! The search for the common ancestor with a peer (`comm/sync.go`). -/

set_option autoImplicit false

namespace MeterPov.Comm

open Lib Lib.Action

variable {ID : Type} [DecidableEq ID]

/-- What the peer and the local chain answer for a number. -/
structure Sides (ID : Type) where
  getBlockIDByNumber : Nat → Exec ID
  getTrunkBlockID : Nat → Exec ID

section

variable (sides : Sides ID)

/-- The state holds the numbers the peer has been asked for. An error is passed on by every caller. -/
def isOverlapped (num : Nat) : Lib.Action (List Nat) Bool := do
  modify fun asked => asked ++ [num]
  let result ← lift (sides.getBlockIDByNumber num)
  let id ← lift (sides.getTrunkBlockID num)
  return id = result

def find : Nat → Nat → Nat → Nat → Lib.Action (List Nat) Nat
  | 0, _, _, _ => throw (.raised "still searching")
  | steps + 1, start, stop, ancestor =>
    if start = stop then do
      if ← isOverlapped sides start then return start
      return ancestor
    else do
      let mid := (start + stop) % 2 ^ 32 / 2
      if ← isOverlapped sides mid then find steps ((mid + 1) % 2 ^ 32) stop mid
      else if start < mid then find steps start (mid - 1) ancestor
      else return ancestor

def fastSeek (headNum : Nat) : Nat → Nat → Lib.Action (List Nat) Nat
  | 0, _ => throw (.raised "still seeking")
  | steps + 1, backward =>
    if headNum ≤ backward then return 0
    else do
      if ← isOverlapped sides (headNum - backward) then return headNum - backward
      else fastSeek headNum steps (if backward = 0 then 1 else backward * 2 % 2 ^ 32)

def findCommonAncestor (steps headNum : Nat) : Lib.Action (List Nat) Nat :=
  if headNum = 0 then return headNum
  else do
    let seekNum ← fastSeek sides headNum steps 0
    if seekNum = headNum then return headNum
    find sides steps seekNum headNum 0

end

/-- Up to the head both sides answer, and they agree exactly up to the ancestor. -/
def Sides.AgreeTo (sides : Sides ID) (headNum ancestor : Nat) : Prop :=
  ∀ num ≤ headNum, ∃ result id, sides.getBlockIDByNumber num = .ok result ∧ sides.getTrunkBlockID num = .ok id ∧
    (id = result ↔ num ≤ ancestor)

variable {sides : Sides ID} {headNum ancestor : Nat}

def Below (headNum : Nat) (asked : List Nat) : Prop := ∀ num ∈ asked, num ≤ headNum

/-- A computation that returns, without an error and without a question above the head. -/
abbrev Returns (headNum : Nat) {α : Type} (action : Lib.Action (List Nat) α) (holds : α → Prop) : Prop :=
  Ends (Below headNum) action (fun value asked => holds value ∧ Below headNum asked) fun _ _ => False

theorem ask (agree : sides.AgreeTo headNum ancestor) {num} (inside : num ≤ headNum) {α next}
    {holds : α → Prop} (below : num ≤ ancestor → Returns headNum (next true) holds)
    (above : ancestor < num → Returns headNum (next false) holds) : Returns headNum (isOverlapped sides num >>= next) holds := by
  obtain ⟨result, id, answered, local_, same⟩ := agree num inside
  have asks : Returns headNum (isOverlapped sides num) (· = decide (num ≤ ancestor)) := by
    refine .via (fun _ => Below headNum) (.write fun asked known => ?_) fun _ => ?_
    · exact List.forall_mem_append.mpr ⟨known, List.forall_mem_singleton.mpr inside⟩
    · rw [answered, local_]
      exact .ret fun asked known => ⟨by simp [same], known⟩
  refine .seq asks fun overlapped => .assuming ?_
  rintro rfl
  by_cases low : num ≤ ancestor
  · simpa [low] using below low
  · simpa [low] using above (Nat.lt_of_not_le low)

/-- The ancestor lies in the interval, unless it was found just before it. -/
theorem find_returns (small : headNum < 2 ^ 31) (agree : sides.AgreeTo headNum ancestor) {steps start stop last}
    (ordered : start ≤ stop) (inside : stop ≤ headNum) (enough : stop - start < steps) (high : ancestor ≤ stop)
    (low : start ≤ ancestor ∨ last = ancestor ∧ start = ancestor + 1) :
    Returns headNum (find sides steps start stop last) (· = ancestor) := by
  induction steps generalizing start stop last with
  | zero => omega
  | succ steps ih =>
    refine .branch (fun same => ?_) fun apart => ?_
    · exact ask agree (by omega) (fun below => .ret fun _ known => ⟨by omega, known⟩) fun above => .ret fun _ known => ⟨by omega, known⟩
    · have sum : (start + stop) % 2 ^ 32 = start + stop := Nat.mod_eq_of_lt (by omega)
      have next : ((start + stop) / 2 + 1) % 2 ^ 32 = (start + stop) / 2 + 1 := Nat.mod_eq_of_lt (by omega)
      simp only [sum, next]
      refine ask agree (by omega) (fun below => ?_) fun above =>
        .branch (fun never => absurd never Bool.false_ne_true) fun _ => .branch (fun more => ?_) fun more => ?_
      · exact ih (by omega) inside (by omega) high (by omega)
      · exact ih (by omega) (by omega) (by omega) (by omega) low
      · exact .ret fun _ known => ⟨by omega, known⟩

theorem fastSeek_returns (small : headNum < 2 ^ 31) (agree : sides.AgreeTo headNum ancestor) {steps backward}
    (enough : headNum - backward < steps) : Returns headNum (fastSeek sides headNum steps backward) (· ≤ min ancestor headNum) := by
  induction steps generalizing backward with
  | zero => omega
  | succ steps ih =>
    refine .branch (fun _ => .ret fun _ known => ⟨Nat.zero_le _, known⟩) fun near => ask agree (Nat.sub_le ..) (fun below => ?_) fun _ => ?_
    · exact .ret fun _ known => ⟨by omega, known⟩
    · apply ih
      split
      · omega
      · rw [Nat.mod_eq_of_lt (by omega)]
        omega

/-- With more steps than blocks the search ends at the ancestor, and no question is above the head. -/
theorem findCommonAncestor_finds {headNum ancestor steps : Nat} (small : headNum < 2 ^ 31) (inside : ancestor ≤ headNum)
    (agree : sides.AgreeTo headNum ancestor) (enough : headNum < steps) :
    ∃ asked, findCommonAncestor sides steps headNum [] = .ok ancestor asked ∧ ∀ num ∈ asked, num ≤ headNum := by
  have returns : Returns headNum (findCommonAncestor sides steps headNum) (· = ancestor) := by
    refine .branch (fun zero => .ret fun _ known => ⟨by omega, known⟩) fun _ => ?_
    refine .seq (fastSeek_returns small agree (by omega)) fun seekNum => .assuming fun low => ?_
    refine .branch (fun same => .ret fun _ known => ⟨by omega, known⟩) fun _ => ?_
    exact find_returns small agree (by omega) le_rfl (by omega) inside (by omega)
  have result := returns [] (by simp [Below])
  split at result
  next value asked ran =>
    obtain ⟨rfl, below⟩ := result
    exact ⟨asked, ran, below⟩
  · exact result.elim

/-- A peer that left the local chain after block 3. -/
def forkedPeer : Sides Nat := ⟨fun num => .ok (if num ≤ 3 then num else num + 100), .ok⟩

theorem forkedPeer_found :
    ∃ asked, findCommonAncestor forkedPeer 8 7 [] = .ok 3 asked ∧ ∀ num ∈ asked, num ≤ 7 := by
  refine findCommonAncestor_finds (by decide) (by decide) (fun num _ => ⟨_, _, rfl, rfl, ?_⟩) (by decide)
  split <;> omega

end MeterPov.Comm
