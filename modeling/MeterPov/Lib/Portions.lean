import Mathlib

/-! Amounts that are split by weight and rounded down, and amounts that are credited to keys in any order. -/

set_option autoImplicit false

namespace MeterPov.Lib

open List AList

theorem toInt64_of_lt {number : UInt64} (small : number.toNat < 2 ^ 63) : number.toInt64.toInt = number.toNat := by
  change number.toBitVec.toInt = number.toBitVec.toNat
  apply BitVec.toInt_eq_toNat_of_lt
  have same : number.toBitVec.toNat = number.toNat := rfl
  omega

section

variable {amount part whole : Int}

theorem portion_nonneg (amountNonneg : 0 ≤ amount) (partNonneg : 0 ≤ part) (positive : 0 < whole) : 0 ≤ amount * part / whole :=
  Int.ediv_nonneg (Int.mul_nonneg amountNonneg partNonneg) positive.le

theorem portion_le (amountNonneg : 0 ≤ amount) (partLe : part ≤ whole) (positive : 0 < whole) : amount * part / whole ≤ amount := by
  apply Int.ediv_le_of_le_mul positive
  exact Int.mul_le_mul_of_nonneg_left partLe amountNonneg

def portions (amount whole : Int) (parts : List Int) : List Int :=
  parts.map fun part => amount * part / whole

theorem portions_sum_mul_le (amount : Int) (positive : 0 < whole) (parts : List Int) :
    (portions amount whole parts).sum * whole ≤ amount * parts.sum := by
  induction parts with
  | nil => simp [portions]
  | cons part rest ih =>
    have first := Int.ediv_mul_le (amount * part) positive.ne'
    simp only [portions, map_cons, sum_cons, Int.add_mul, Int.mul_add] at ih ⊢
    omega

theorem portions_sum_mul_ge (amount : Int) (positive : 0 < whole) (parts : List Int) :
    amount * parts.sum ≤ ((portions amount whole parts).sum + parts.length) * whole := by
  induction parts with
  | nil => simp [portions]
  | cons part rest ih =>
    have first := Int.lt_ediv_add_one_mul_self (amount * part) positive
    simp only [portions, map_cons, sum_cons, length_cons, Int.natCast_add, Int.natCast_one, Int.add_mul,
      Int.mul_add, one_mul] at ih first ⊢
    omega

theorem portions_sum_le {parts} (amountNonneg : 0 ≤ amount) (positive : 0 < whole) (within : parts.sum ≤ whole) :
    (portions amount whole parts).sum ≤ amount := by
  have scaled := Int.mul_le_mul_of_nonneg_left within amountNonneg
  exact Int.le_of_mul_le_mul_right ((portions_sum_mul_le amount positive parts).trans scaled) positive

theorem portions_sum_ge {parts} (amount : Int) (positive : 0 < whole) (complete : parts.sum = whole) :
    amount ≤ (portions amount whole parts).sum + parts.length := by
  have scaled := portions_sum_mul_ge amount positive parts
  rw [complete] at scaled
  exact Int.le_of_mul_le_mul_right scaled positive

end

section

variable {Key Amount : Type} [DecidableEq Key] [AddCommMonoid Amount]

def credited (credits : List (Key × Amount)) (key : Key) : Amount :=
  (credits.map fun credit => if credit.1 = key then credit.2 else 0).sum

@[simp] theorem credited_nil (key : Key) : credited ([] : List (Key × Amount)) key = 0 := rfl

@[simp] theorem credited_cons (credit : Key × Amount) (credits : List (Key × Amount)) (key : Key) :
    credited (credit :: credits) key = (if credit.1 = key then credit.2 else 0) + credited credits key := by
  simp [credited]

@[simp] theorem credited_append (first second : List (Key × Amount)) (key : Key) :
    credited (first ++ second) key = credited first key + credited second key := by
  simp [credited]

variable {credits : List (Key × Amount)}

theorem sum_ite_key {keys : List Key} (distinct : keys.Nodup) {key} (member : key ∈ keys) (amount : Amount) :
    (keys.map fun other => if key = other then amount else 0).sum = amount := by
  induction keys with
  | nil => cases member
  | cons first rest ih =>
    obtain ⟨absent, restDistinct⟩ := nodup_cons.mp distinct
    rw [map_cons, sum_cons]
    by_cases same : key = first
    · -- no later key is this one
      have others : (rest.map fun other => if key = other then amount else 0) = rest.map fun _ => 0 := by
        apply map_congr_left
        intro other found
        rw [if_neg]
        rintro rfl
        exact absent (same ▸ found)
      rw [others, if_pos same]
      simp
    · rw [if_neg same, zero_add]
      exact ih restDistinct ((mem_cons.mp member).resolve_left same)

theorem sum_credited {keys : List Key} (distinct : keys.Nodup) (covered : ∀ credit ∈ credits, credit.1 ∈ keys) :
    (keys.map fun key => credited credits key).sum = (credits.map Prod.snd).sum := by
  induction credits with
  | nil => simp
  | cons credit rest ih =>
    have first := sum_ite_key distinct (covered credit mem_cons_self) credit.2
    have others := ih fun other member => covered other (mem_cons_of_mem _ member)
    simp only [credited_cons, sum_map_add, map_cons, sum_cons, first, others]

end

theorem credited_nonneg {Key Amount} [DecidableEq Key] [AddCommMonoid Amount] [Preorder Amount] [AddLeftMono Amount]
    {credits : List (Key × Amount)} (nonneg : ∀ credit ∈ credits, 0 ≤ credit.2) (key : Key) :
    0 ≤ credited credits key := by
  apply sum_nonneg
  intro amount member
  obtain ⟨credit, credits, rfl⟩ := mem_map.mp member
  split
  · exact nonneg credit credits
  · exact le_rfl

section

variable {Key Amount : Type} [DecidableEq Key] [AddCommMonoid Amount]

abbrev CreditMap (Key Amount : Type) := AList fun _ : Key => Amount

namespace CreditMap

def amount (map : CreditMap Key Amount) (key : Key) : Amount :=
  (map.lookup key).getD 0

def credit (map : CreditMap Key Amount) (entry : Key × Amount) : CreditMap Key Amount :=
  map.insert entry.1 (amount map entry.1 + entry.2)

def creditAll (map : CreditMap Key Amount) (entries : List (Key × Amount)) : CreditMap Key Amount :=
  entries.foldl credit map

variable (map : CreditMap Key Amount)

theorem creditAll_append (first second : List (Key × Amount)) :
    creditAll map (first ++ second) = creditAll (creditAll map first) second :=
  foldl_append

theorem amount_credit (entry : Key × Amount) (key : Key) :
    amount (credit map entry) key = amount map key + if entry.1 = key then entry.2 else 0 := by
  by_cases same : entry.1 = key
  · subst same
    simp [amount, credit]
  · simp [amount, credit, same, lookup_insert_ne (Ne.symm same)]

theorem amount_creditAll (entries : List (Key × Amount)) (key : Key) :
    amount (creditAll map entries) key = amount map key + credited entries key := by
  induction entries generalizing map with
  | nil => simp [creditAll]
  | cons entry rest ih =>
    have step := ih (credit map entry)
    rw [amount_credit, add_assoc] at step
    simpa only [creditAll, foldl_cons, credited_cons] using step

theorem mem_creditAll (entries : List (Key × Amount)) (key : Key) :
    key ∈ (creditAll map entries).keys ↔ key ∈ map.keys ∨ key ∈ entries.map Prod.fst := by
  induction entries generalizing map with
  | nil => simp [creditAll]
  | cons entry rest ih =>
    have step := ih (credit map entry)
    have inserted : key ∈ (credit map entry).keys ↔ key = entry.1 ∨ key ∈ map.keys := mem_insert map
    simp only [creditAll, foldl_cons, map_cons, mem_cons] at step ⊢
    tauto

theorem amount_empty (key : Key) : amount (∅ : CreditMap Key Amount) key = 0 := rfl

theorem entries_eq : (map.entries.map fun entry => (entry.1, entry.2)) = map.keys.map fun key => (key, amount map key) := by
  rw [AList.keys, List.keys, map_map]
  apply map_congr_left
  intro entry member
  have found : map.lookup entry.1 = some entry.2 := mem_lookup_iff.mpr member
  simp [amount, found]

theorem sum_creditAll {keys : List Key} {entries} (permuted : keys.Perm (creditAll (∅ : CreditMap Key Amount) entries).keys) :
    (keys.map fun key => amount (creditAll (∅ : CreditMap Key Amount) entries) key).sum = (entries.map Prod.snd).sum := by
  simp only [amount_creditAll, amount_empty, zero_add]
  apply sum_credited (permuted.nodup_iff.mpr (keys_nodup _))
  intro credit member
  rw [permuted.mem_iff, mem_creditAll]
  exact Or.inr (mem_map_of_mem member)

end CreditMap
end
end MeterPov.Lib
