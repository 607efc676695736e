import Mathlib

/-! The transactions of the pool by ID, with a quota for each account (`txpool/tx_object_map.go`). -/

set_option autoImplicit false

namespace MeterPov.TxPool

variable {TxID Address : Type} [DecidableEq TxID] [DecidableEq Address]

/-- What the map reads of a transaction object. -/
structure TxObject (TxID Address : Type) where
  id : TxID
  origin : Address

structure TxObjectMap (TxID Address : Type) where
  txObjMap : AList fun _ : TxID => TxObject TxID Address
  quota : AList fun _ : Address => Int

def newTxObjectMap : TxObjectMap TxID Address := ⟨∅, ∅⟩

namespace TxObjectMap

variable (m : TxObjectMap TxID Address)

/-- `m.quota[addr]`: an address without an entry reads as zero. -/
def quotaOf (addr : Address) : Int := (m.quota.lookup addr).getD 0

/-- The two updates that `Add` and `Fill` share. -/
def enter (txObj : TxObject TxID Address) : TxObjectMap TxID Address where
  txObjMap := m.txObjMap.insert txObj.id txObj
  quota := m.quota.insert txObj.origin (m.quotaOf txObj.origin + 1)

def add (txObj : TxObject TxID Address) (limitPerAccount : Int) : TxObjectMap TxID Address × Option String :=
  if (m.txObjMap.lookup txObj.id).isSome then (m, none)
  else if limitPerAccount ≤ m.quotaOf txObj.origin then (m, some "account quota exceeded")
  else (m.enter txObj, none)

def remove (txID : TxID) : TxObjectMap TxID Address × Bool :=
  match m.txObjMap.lookup txID with
  | some txObj =>
    ({ txObjMap := m.txObjMap.erase txID
       quota := if 1 < m.quotaOf txObj.origin then m.quota.insert txObj.origin (m.quotaOf txObj.origin - 1)
         else m.quota.erase txObj.origin }, true)
  | none => (m, false)

/-- `Fill` skips the check of the limit. -/
def fill (txObjs : List (TxObject TxID Address)) : TxObjectMap TxID Address :=
  txObjs.foldl (fun m txObj => if (m.txObjMap.lookup txObj.id).isSome then m else m.enter txObj) m

/-- The number of transactions of the account. -/
def pooled (txObjMap : AList fun _ : TxID => TxObject TxID Address) (addr : Address) : Nat :=
  txObjMap.entries.countP fun entry => entry.2.origin = addr

/-- The quota is the number of pooled transactions, and is not kept where there is none. -/
def Counted : Prop :=
  ∀ addr, m.quota.lookup addr = if pooled m.txObjMap addr = 0 then none else some (pooled m.txObjMap addr : Int)

variable {m} {txObj : TxObject TxID Address} {addr : Address}

omit [DecidableEq TxID] in
theorem Counted.quotaOf_eq (counted : m.Counted) (addr : Address) : m.quotaOf addr = pooled m.txObjMap addr := by
  unfold quotaOf
  rw [counted]
  split <;> simp [*]

theorem pooled_insert {txObjMap} (absent : ¬ (txObjMap.lookup txObj.id).isSome) :
    pooled (txObjMap.insert txObj.id txObj) addr = pooled txObjMap addr + if txObj.origin = addr then 1 else 0 := by
  rw [AList.lookup_isSome] at absent
  unfold pooled
  rw [AList.entries_insert_of_notMem absent, List.countP_cons]
  simp

theorem pooled_erase {txObjMap txID} (held : txObjMap.lookup txID = some txObj) :
    pooled txObjMap addr = pooled (txObjMap.erase txID) addr + if txObj.origin = addr then 1 else 0 := by
  have listed := AList.lookup_isSome.mp (by rw [held]; rfl)
  obtain ⟨found, first, rest, _, parts, erased⟩ := List.exists_of_kerase listed
  have lookup := AList.mem_lookup_iff.mpr (parts ▸ List.mem_append_right first List.mem_cons_self)
  obtain rfl := Option.some.inj (lookup.symm.trans held)
  unfold pooled
  rw [show (txObjMap.erase txID).entries = first ++ rest from erased, parts]
  simp [List.countP_cons, add_assoc]

theorem Counted.enter (counted : m.Counted) (absent : ¬ (m.txObjMap.lookup txObj.id).isSome) : (m.enter txObj).Counted := by
  intro addr
  simp only [TxObjectMap.enter, pooled_insert absent]
  by_cases same : addr = txObj.origin
  · subst same
    simp [counted.quotaOf_eq]
  · rw [AList.lookup_insert_ne same, if_neg (Ne.symm same)]
    exact counted addr

theorem Counted.add (counted : m.Counted) (limit : Int) : (m.add txObj limit).1.Counted := by
  unfold TxObjectMap.add
  split
  · exact counted
  next absent =>
    split
    · exact counted
    · exact counted.enter absent

theorem Counted.remove (counted : m.Counted) (txID : TxID) : (m.remove txID).1.Counted := by
  unfold TxObjectMap.remove
  split
  next txObj held =>
    intro addr
    have fewer : pooled m.txObjMap addr = _ := pooled_erase held
    simp only [counted.quotaOf_eq]
    by_cases same : addr = txObj.origin
    · subst same
      rw [if_pos rfl] at fewer
      split
      next more =>
        rw [AList.lookup_insert, fewer, if_neg (by omega)]
        simp
      next last => rw [AList.lookup_erase, if_pos (by omega)]
    · rw [if_neg (Ne.symm same), add_zero] at fewer
      rw [← fewer, ← counted addr]
      split
      · exact AList.lookup_insert_ne same
      · exact AList.lookup_erase_ne same
  · exact counted

theorem Counted.fill (counted : m.Counted) (txObjs : List (TxObject TxID Address)) : (m.fill txObjs).Counted := by
  induction txObjs generalizing m with
  | nil => exact counted
  | cons txObj rest ih =>
    rw [TxObjectMap.fill, List.foldl_cons]
    apply ih
    split
    · exact counted
    next absent => exact counted.enter absent

theorem quotaOf_add (limit : Int) (addr : Address) :
    (m.add txObj limit).1.quotaOf addr = m.quotaOf addr ∨ (m.add txObj limit).1.quotaOf addr ≤ limit := by
  unfold add
  split
  · exact .inl rfl
  · split
    · exact .inl rfl
    next below =>
      by_cases same : addr = txObj.origin
      · right
        subst same
        simp only [enter, quotaOf, AList.lookup_insert, Option.getD_some] at below ⊢
        omega
      · left
        simp [enter, quotaOf, AList.lookup_insert_ne same]

end TxObjectMap

inductive PoolCall (TxID Address : Type) where
  | add (txObj : TxObject TxID Address) (limitPerAccount : Int)
  | remove (txID : TxID)
  | fill (txObjs : List (TxObject TxID Address))

def PoolCall.apply (m : TxObjectMap TxID Address) : PoolCall TxID Address → TxObjectMap TxID Address
  | .add txObj limitPerAccount => (m.add txObj limitPerAccount).1
  | .remove txID => (m.remove txID).1
  | .fill txObjs => m.fill txObjs

theorem counted_after (calls : List (PoolCall TxID Address)) : (calls.foldl PoolCall.apply newTxObjectMap).Counted := by
  induction calls using List.reverseRecOn with
  | nil => exact fun _ => rfl
  | append_singleton calls call ih =>
    rw [List.foldl_append]
    cases call with
    | add txObj limit => exact ih.add limit
    | remove txID => exact ih.remove txID
    | fill txObjs => exact ih.fill txObjs

/-- After any calls the quota of an account is the number of its transactions in the pool, with no entry where there is none,
and an `Add` leaves it as it is or at most at the limit. -/
theorem quota_counts_pooled (calls : List (PoolCall TxID Address)) :
    let m : TxObjectMap TxID Address := calls.foldl PoolCall.apply newTxObjectMap
    (∀ addr, m.quota.lookup addr =
      if TxObjectMap.pooled m.txObjMap addr = 0 then none else some (TxObjectMap.pooled m.txObjMap addr : Int)) ∧
    ∀ (txObj : TxObject TxID Address) (limit : Int) (addr : Address),
      (m.add txObj limit).1.quotaOf addr = m.quotaOf addr ∨ (m.add txObj limit).1.quotaOf addr ≤ limit :=
  ⟨counted_after calls, fun _ => TxObjectMap.quotaOf_add⟩

end MeterPov.TxPool
