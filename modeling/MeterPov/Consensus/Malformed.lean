import MeterPov.Consensus.Certificates

/-! Certificates with any text for their bit array and any bytes for their signature (`block/quorum_cert.go`,
`libs/common/bit_array.go`, `types/timeout_cert.go`).

For each function that reads one it is stated for which certificates it returns; for all others it panics. -/

set_option autoImplicit false

namespace MeterPov.Blocks

open Lib List BitArray

/-! ## Texts -/

namespace BitArray

/-- A run of underscores and x's with at least one of them. -/
def Bits (letters : Bytes) : Prop := letters ≠ [] ∧ ∀ letter ∈ letters, letter = underscore ∨ letter = letterX

instance {letters} : Decidable (Bits letters) := inferInstanceAs (Decidable (_ ∧ _))

/-- The array of a run; the size of a longer one wraps. -/
def ofLetters (letters : Bytes) : BitArray :=
  setLetters ⟨letters.length % 2 ^ 32, List.replicate letters.length false, Nat.mod_lt _ (by decide),
    (Nat.mod_le _ _).trans_eq length_replicate.symm⟩ 0 letters

/-- The x's that an array of the run counts. -/
def marks (letters : Bytes) : Nat := (letters.take (letters.length % 2 ^ 32)).count letterX

variable (letters : Bytes)

theorem matchBits_quoted : matchBits (quote :: letters ++ [quote]) =
      if letters.all (fun letter => letter = underscore || letter = letterX) then some letters else none := by
  simp [matchBits]

theorem eq_quoted_of_matchBits {text letters} (found : matchBits text = some letters) : text = quote :: letters ++ [quote] := by
  match text with
  | first :: rest =>
    simp only [matchBits] at found
    split at found
    next spelled =>
      obtain ⟨rfl, last, -⟩ := spelled
      obtain rfl := Option.some.inj found
      obtain ⟨front, rfl⟩ := List.getLast?_eq_some_iff.mp last
      simp
    · cases found

theorem unmarshalJSON_bits {letters} (spelled : Bits letters) :
    unmarshalJSON (quote :: letters ++ [quote]) = .ok (.ok (ofLetters letters)) := by
  have each : letters.all (fun letter => letter = underscore || letter = letterX) = true := by
    simpa [all_eq_true] using spelled.2
  have nonempty : letters.length ≠ 0 := by simpa using spelled.1
  unfold unmarshalJSON
  rw [if_neg (by simp [nullText, quote]), matchBits_quoted, if_pos each]
  simp [newBitArray, nonempty, ofLetters]

theorem unmarshalJSON_empty : unmarshalJSON [quote, quote] = .error .nilDereference := rfl

theorem unmarshalJSON_other {text} (notNull : text ≠ nullText)
    (notSpelled : ∀ letters, text = quote :: letters ++ [quote] → letters ≠ [] ∧ ¬ Bits letters) :
    unmarshalJSON text = .ok (.error (.badFormat text)) := by
  unfold unmarshalJSON
  rw [if_neg notNull]
  cases found : matchBits text with
  | none => rfl
  | some letters =>
    obtain rfl := eq_quoted_of_matchBits found
    obtain ⟨nonempty, refused⟩ := notSpelled letters rfl
    rw [matchBits_quoted] at found
    split at found
    next each =>
      refine absurd ⟨nonempty, ?_⟩ refused
      simpa [all_eq_true] using each
    · cases found

/-- A text for a bit array: `null`, or a quoted run. -/
def Spelled (text : Bytes) : Prop := text = nullText ∨ ∃ letters, text = quote :: letters ++ [quote] ∧ Bits letters

theorem unmarshalJSON_returns (text : Bytes) : (∃ result, unmarshalJSON text = .ok result) ↔ text ≠ [quote, quote] := by
  constructor
  · rintro ⟨result, returned⟩ rfl
    cases returned
  · intro other
    by_cases isNull : text = nullText
    · exact ⟨_, by rw [unmarshalJSON, if_pos isNull]⟩
    by_cases spelled : ∃ letters, text = quote :: letters ++ [quote] ∧ Bits letters
    · obtain ⟨letters, rfl, bits⟩ := spelled
      exact ⟨_, unmarshalJSON_bits bits⟩
    · refine ⟨_, unmarshalJSON_other isNull fun letters isText => ⟨?_, fun bits => spelled ⟨letters, isText, bits⟩⟩⟩
      rintro rfl
      exact other isText

/-! ## Counting -/

theorem getIndex_setLetters (array : BitArray) (position : Nat) (letters : Bytes) (other : Nat) :
    (setLetters array position letters).getIndex other =
      (array.getIndex other || (decide (position ≤ other ∧ other < array.bits) && decide (letters[other - position]? = some letterX))) := by
  induction letters generalizing array position with
  | nil => simp [setLetters]
  | cons letter rest ih =>
    rw [setLetters, ih]
    -- the bit at the position itself, those before it and those after it
    rcases lt_trichotomy other position with before | rfl | after
    · have unset : ¬ other = position := by omega
      split <;> simp [getIndex_setIndex, unset, show ¬ position ≤ other by omega, show ¬ position + 1 ≤ other by omega]
    · by_cases isX : letter = letterX
      · by_cases inside : other < array.bits
        · simp [isX, getIndex_setIndex, inside]
        · simp [isX, getIndex_setIndex, inside]
      · simp [isX, show ¬ other + 1 ≤ other by omega]
    · have unset : ¬ other = position := by omega
      have shift : other - position = other - (position + 1) + 1 := by omega
      have there : position ≤ other := by omega
      have later : position + 1 ≤ other := by omega
      split <;> simp [getIndex_setIndex, unset, shift, there, later]

theorem countP_range_getElem? (letter : UInt8) (size : Nat) :
    (List.range size).countP (fun position => decide (letters[position]? = some letter)) = (letters.take size).count letter := by
  induction size with
  | zero => simp
  | succ size ih =>
    rw [range_succ, countP_append, ih, take_add_one, count_append]
    cases found : letters[size]? with
    | none => simp [found]
    | some letter' => simp [found, count_cons]

theorem ofLetters_bits : (ofLetters letters).bits = letters.length % 2 ^ 32 := setLetters_bits _ _ _

theorem getIndex_ofLetters (position : Nat) : (ofLetters letters).getIndex position =
      (decide (position < letters.length % 2 ^ 32) && decide (letters[position]? = some letterX)) := by
  rw [ofLetters, getIndex_setLetters]
  by_cases inside : position < letters.length % 2 ^ 32
  · have within : position < letters.length := lt_of_lt_of_le inside (Nat.mod_le _ _)
    simp [getIndex, within]
  · simp [getIndex]

theorem count_ofLetters : (ofLetters letters).count = marks letters := by
  unfold count marks
  rw [← countP_range_getElem?, ofLetters_bits]
  refine countP_congr fun position inside => ?_
  rw [mem_range] at inside
  simp only [getIndex_ofLetters, inside, decide_true, Bool.true_and]

end BitArray
/-! ## The texts of certificates -/

section

variable {Digest Address Tx Key Sig : Type}

/-- What stands after the colon of a text such as `BA{4:xx_x}`. -/
def lettersOf (text : Bytes) : Option Bytes :=
  if text.length < 4 then none else (((text.take (text.length - 1)).drop 3).splitOn colon)[1]?

theorem voterBitArray_eq (text : Bytes) : voterBitArray text =
      if text = [] then .ok none
      else match lettersOf text with
        | none => .error .outOfRange
        | some letters =>
          if letters = [] then .error .nilDereference
          else if BitArray.Bits letters then .ok (some (BitArray.ofLetters letters)) else .ok none := by
  unfold voterBitArray lettersOf
  by_cases isEmpty : text = []
  · simp [isEmpty]
  rw [if_neg (by simpa using isEmpty), if_neg isEmpty]
  by_cases short : text.length < 4
  · have bounds : ¬ ((0 : Int) ≤ 3 ∧ (3 : Int) ≤ text.length - 1 ∧ (text.length - 1 : Int) ≤ text.length) := by omega
    rw [Exec.slice, if_neg bounds, if_pos short]
    rfl
  have bounds : (0 : Int) ≤ 3 ∧ (3 : Int) ≤ text.length - 1 ∧ (text.length - 1 : Int) ≤ text.length := by omega
  have sameEnd : (text.length - 1 : Int).toNat = text.length - 1 := by omega
  rw [Exec.slice, if_pos bounds, if_neg short, sameEnd, show (3 : Int).toNat = 3 from rfl]
  simp only [Exec.ok_bind, Exec.index]
  cases (((text.take (text.length - 1)).drop 3).splitOn colon)[1]? with
  | none => rfl
  | some letters =>
    simp only [Exec.ok_bind]
    by_cases none : letters = []
    · subst none
      rfl
    rw [if_neg none]
    by_cases bits : BitArray.Bits letters
    · rw [unmarshalJSON_bits bits, if_pos bits]
      rfl
    · have refused : ∀ other, BitArray.quote :: letters ++ [BitArray.quote] = BitArray.quote :: other ++ [BitArray.quote] →
          other ≠ [] ∧ ¬ BitArray.Bits other := by
        intro other same
        obtain rfl : letters = other := append_cancel_right (List.cons.inj same).2
        exact ⟨none, bits⟩
      have notNull : BitArray.quote :: letters ++ [BitArray.quote] ≠ BitArray.nullText := by
        simp [BitArray.nullText, BitArray.quote]
      rw [unmarshalJSON_other notNull refused, if_neg bits]
      rfl

theorem voterBitArray_returns (text : Bytes) :
    (∃ result, voterBitArray text = .ok result) ↔ text = [] ∨ ∃ letters, lettersOf text = some letters ∧ letters ≠ [] := by
  rw [voterBitArray_eq]
  by_cases isEmpty : text = []
  · simp [isEmpty]
  cases lettersOf text with
  | none => simp [isEmpty]
  | some letters =>
    by_cases none : letters = []
    · simp [isEmpty, none]
    · by_cases bits : BitArray.Bits letters
      · simp [isEmpty, none, bits]
      · simp [isEmpty, none, bits]

theorem lettersOf_nil : lettersOf [] = none := rfl

variable {array : BitArray}

theorem voterBitArray_eq_some {text} : voterBitArray text = .ok (some array) ↔
      ∃ letters, lettersOf text = some letters ∧ BitArray.Bits letters ∧ BitArray.ofLetters letters = array := by
  rw [voterBitArray_eq]
  by_cases isEmpty : text = []
  · simp [isEmpty, lettersOf_nil]
  cases lettersOf text with
  | none => simp [isEmpty]
  | some letters =>
    by_cases none : letters = []
    · simp [isEmpty, none, BitArray.Bits]
    · by_cases bits : BitArray.Bits letters
      · simp [isEmpty, none, bits]
      · simp [isEmpty, none, bits]

theorem not_mem_digits (number : Nat) : colon ∉ (Nat.toDigits 10 number).map fun digit => UInt8.ofNat digit.toNat := by
  intro member
  obtain ⟨digit, listed, same⟩ := mem_map.mp member
  have isDigit := Nat.isDigit_of_mem_toDigits (by decide) (by decide) listed
  have low : digit.toNat < 58 := by
    simp only [Char.isDigit, Bool.and_eq_true, decide_eq_true_eq] at isDigit
    have bound := isDigit.2
    exact Nat.lt_succ_of_le bound
  have number : (UInt8.ofNat digit.toNat).toNat = 58 := by rw [same]; rfl
  rw [UInt8.toNat_ofNat'] at number
  omega

def BitArray.letters (array : BitArray) : Bytes :=
  (List.range array.bits).map fun position => if array.getIndex position then letterX else underscore

theorem bits_letters (positive : 0 < array.bits) : BitArray.Bits array.letters := by
  constructor
  · simpa [BitArray.letters] using ne_of_gt positive
  · intro letter member
    obtain ⟨position, -, rfl⟩ := mem_map.mp member
    split
    · exact Or.inr rfl
    · exact Or.inl rfl

theorem lettersOf_string (array : BitArray) : lettersOf (BitArray.string (some array)) = some array.letters := by
  generalize isLetters : array.letters = letters
  generalize isDigits : (Nat.toDigits 10 array.bits).map (fun digit => UInt8.ofNat digit.toNat) = digits
  have text : BitArray.string (some array) = ([66, 65, 123] ++ (digits ++ colon :: letters)) ++ [125] := by
    simp [BitArray.string, ← isLetters, BitArray.letters, isDigits, colon]
  have noColon : colon ∉ digits := isDigits ▸ not_mem_digits array.bits
  have noColonToo : colon ∉ letters := by
    rw [← isLetters]
    intro member
    obtain ⟨position, -, same⟩ := mem_map.mp member
    split at same <;> cases same
  unfold lettersOf
  rw [text, if_neg (by simp; omega)]
  have front : (([66, 65, 123] ++ (digits ++ colon :: letters)) ++ [125]).take
      ((([66, 65, 123] ++ (digits ++ colon :: letters)) ++ [125]).length - 1) = [66, 65, 123] ++ (digits ++ colon :: letters) := by
    rw [length_append, length_singleton, Nat.add_sub_cancel, take_left]
  rw [front, show (3 : Nat) = ([66, 65, 123] : Bytes).length from rfl, drop_left,
    splitOn_append_cons_self_of_not_mem noColon]
  have single := splitOn_eq_singleton noColonToo
  rw [single]
  rfl

theorem BitArray.ofLetters_letters (array : BitArray) :
    (BitArray.ofLetters array.letters).bits = array.bits ∧
      ∀ position, (BitArray.ofLetters array.letters).getIndex position = array.getIndex position := by
  have fits := Nat.mod_eq_of_lt array.bounded
  refine ⟨?_, fun position => ?_⟩
  · rw [ofLetters_bits, letters, length_map, length_range, fits]
  · rw [getIndex_ofLetters, letters, length_map, length_range, fits]
    by_cases inside : position < array.bits
    · cases set : array.getIndex position with
      | false => simp [inside, set, BitArray.letterX, BitArray.underscore]
      | true => simp [inside, set]
    · rw [getIndex_of_le (Nat.le_of_not_lt inside)]
      simp [inside]

theorem voterBitArray_string (positive : 0 < array.bits) :
    ∃ parsed, voterBitArray (BitArray.string (some array)) = .ok (some parsed) ∧ parsed.bits = array.bits ∧
      ∀ position, parsed.getIndex position = array.getIndex position :=
  ⟨_, voterBitArray_eq_some.mpr ⟨_, lettersOf_string array, bits_letters positive, rfl⟩, array.ofLetters_letters⟩

/-- If the marks of a run are enough for a committee, the signature is looked at: it has to decode. -/
def Signed (bls : BlsCommon Key Sig Digest) (committeeSize : Nat) (letters aggSig : Bytes) : Prop :=
  majorityTwoThird (BitArray.marks letters % 2 ^ 32) (committeeSize % 2 ^ 32) = true → ∃ sig, bls.sigFromBytes aggSig = .ok sig

theorem verifyQC_returns [DecidableEq Digest] (block : Block Digest Address Tx) (hashing : Hashing Digest Address)
    (qc : QuorumCert Digest) (bls : BlsCommon Key Sig Digest) (committee : List (Validator Key)) :
    (∃ result, block.verifyQC hashing qc bls committee = .ok result) ↔
      block.number = qc.qcHeight ∧ (block.number = 0 ∨ block.number = 1) ∨ qc.voterMsgHash ≠ block.votingHash hashing ∨
        ∃ letters, lettersOf qc.voterBitArrayStr = some letters ∧ BitArray.Bits letters ∧
          Signed bls committee.length letters qc.voterAggSig := by
  unfold Block.verifyQC
  by_cases first : block.number = qc.qcHeight ∧ (block.number = 0 ∨ block.number = 1)
  · simp only [if_pos first]
    exact ⟨fun _ => Or.inl first, fun _ => ⟨_, rfl⟩⟩
  by_cases hash : qc.voterMsgHash ≠ block.votingHash hashing
  · simp only [if_neg first, if_pos hash]
    exact ⟨fun _ => Or.inr (Or.inl hash), fun _ => ⟨_, rfl⟩⟩
  simp only [if_neg first, if_neg hash, Exec.bind_eq_ok, Exec.deref_eq_ok, QuorumCert.voterBitArray]
  constructor
  · rintro ⟨result, pointer, parsed, array, rfl, ran⟩
    obtain ⟨letters, found, bits, rfl⟩ := voterBitArray_eq_some.mp parsed
    refine Or.inr (Or.inr ⟨letters, found, bits, fun enough => ?_⟩)
    rw [BitArray.count_ofLetters, if_neg (by rw [enough]; decide)] at ran
    obtain ⟨_, freed, _⟩ := Exec.bind_eq_ok.mp ran
    exact freeSignature_eq_ok.mp freed
  · rintro (isFirst | other | ⟨letters, found, bits, signed⟩)
    · exact absurd isFirst first
    · exact absurd other hash
    · have parsed := voterBitArray_eq_some.mpr ⟨letters, found, bits, rfl⟩
      simp only [parsed, Except.ok.injEq, exists_eq_left', Option.some.injEq, BitArray.count_ofLetters]
      by_cases enough : majorityTwoThird (BitArray.marks letters % 2 ^ 32) (committee.length % 2 ^ 32) = false
      · exact ⟨_, by rw [if_pos enough]⟩
      · have freed : freeSignature bls qc.voterAggSig = .ok () := freeSignature_eq_ok.mpr (signed (by simpa using enough))
        exact ⟨_, by rw [if_neg enough, freed, Exec.ok_bind]⟩

/-! ## Timeout certificates -/

structure TimeoutPayload (Digest : Type) where
  epoch : Nat
  round : Nat
  bitArrayStr : Bytes
  msgHash : Digest
  aggSig : Bytes

namespace TimeoutCert

/-- The fields are read by the RLP library. A text that is refused leaves no bit array. -/
def decodeRLP (decode : Bytes → Except String (TimeoutPayload Digest)) (stream : Bytes) : Exec (Except String (TimeoutCert Digest)) :=
  match decode stream with
  | .error reason => .ok (.error reason)
  | .ok payload => do
    let bitArray ← BitArray.unmarshalJSON payload.bitArrayStr
    .ok (.ok ⟨payload.epoch, payload.round, bitArray.toOption, payload.msgHash, payload.aggSig⟩)

def string (tc : Option (TimeoutCert Digest)) : Exec String :=
  match tc with
  | none => .ok "nil"
  | some tc => do
    let array ← Exec.deref tc.bitArray
    let epoch := tc.epoch
    let round := tc.round
    let count := array.count
    let size := BitArray.sizeOf tc.bitArray
    .ok s!"TC(E:{epoch},R:{round},Voted:{count}/{size})"

variable {decode : Bytes → Except String (TimeoutPayload Digest)} {stream : Bytes}

theorem decodeRLP_returns : (∃ result, decodeRLP decode stream = .ok result) ↔
      ∀ payload, decode stream = .ok payload → payload.bitArrayStr ≠ [BitArray.quote, BitArray.quote] := by
  unfold decodeRLP
  cases decode stream with
  | error reason => simp
  | ok payload =>
    simp only [Except.ok.injEq, forall_eq']
    rw [← unmarshalJSON_returns]
    constructor
    · rintro ⟨result, ran⟩
      obtain ⟨parsed, isParsed, -⟩ := Exec.bind_eq_ok.mp ran
      exact ⟨parsed, isParsed⟩
    · rintro ⟨parsed, isParsed⟩
      exact ⟨_, Exec.bind_eq_ok.mpr ⟨parsed, isParsed, rfl⟩⟩

/-- The array of a decoded certificate is the one its text spells. -/
inductive Holds (text : Bytes) : Option BitArray → Prop
  | null (isNull : text = BitArray.nullText) : Holds text (some BitArray.empty)
  | spelled {letters : Bytes} (isText : text = BitArray.quote :: letters ++ [BitArray.quote]) (bits : BitArray.Bits letters) :
      Holds text (some (BitArray.ofLetters letters))
  | refused (other : ¬ BitArray.Spelled text) : Holds text none

theorem decodeRLP_ok {tc} (decoded : decodeRLP decode stream = .ok (.ok tc)) :
    ∃ payload, decode stream = .ok payload ∧ Holds payload.bitArrayStr tc.bitArray ∧
      tc = ⟨payload.epoch, payload.round, tc.bitArray, payload.msgHash, payload.aggSig⟩ := by
  unfold decodeRLP at decoded
  cases isPayload : decode stream with
  | error reason => simp [isPayload] at decoded
  | ok payload =>
    simp only [isPayload] at decoded
    obtain ⟨parsed, isParsed, built⟩ := Exec.bind_eq_ok.mp decoded
    obtain rfl := Except.ok.inj (Except.ok.inj built)
    refine ⟨payload, rfl, ?_, rfl⟩
    by_cases isNull : payload.bitArrayStr = BitArray.nullText
    · rw [BitArray.unmarshalJSON, if_pos isNull] at isParsed
      cases isParsed
      exact .null isNull
    by_cases spelled : ∃ letters, payload.bitArrayStr = BitArray.quote :: letters ++ [BitArray.quote] ∧ BitArray.Bits letters
    · obtain ⟨letters, isText, bits⟩ := spelled
      rw [isText, unmarshalJSON_bits bits] at isParsed
      cases isParsed
      exact .spelled isText bits
    · have notEmpty := (unmarshalJSON_returns _).mp ⟨parsed, isParsed⟩
      rw [unmarshalJSON_other isNull] at isParsed
      · cases isParsed
        exact .refused (not_or.mpr ⟨isNull, spelled⟩)
      · intro letters isText
        refine ⟨?_, fun bits => spelled ⟨letters, isText, bits⟩⟩
        rintro rfl
        exact notEmpty isText

end TimeoutCert
end
end MeterPov.Blocks

namespace MeterPov.Consensus

open Lib Blocks

variable {Digest Address Tx Key Sig : Type}

/-- The marks that the array of a timeout certificate counts. -/
def timeoutMarks (text : Bytes) : Nat :=
  if text = BitArray.nullText then 0 else BitArray.marks ((text.drop 1).dropLast)

theorem count_of_holds {text array} (holds : TimeoutCert.Holds text (some array)) :
    array.count = timeoutMarks text := by
  unfold timeoutMarks
  cases holds with
  | null isNull =>
    rw [if_pos isNull]
    rfl
  | spelled isText bits =>
    rw [if_neg (by simp [isText, BitArray.nullText, BitArray.quote]), BitArray.count_ofLetters, isText]
    simp

variable {array : Option BitArray}

theorem isSome_iff_spelled {text} (holds : TimeoutCert.Holds text array) :
    (∃ found, array = some found) ↔ BitArray.Spelled text := by
  cases holds with
  | null isNull => exact ⟨fun _ => Or.inl isNull, fun _ => ⟨_, rfl⟩⟩
  | spelled isText bits => exact ⟨fun _ => Or.inr ⟨_, isText, bits⟩, fun _ => ⟨_, rfl⟩⟩
  | refused other => exact ⟨fun ⟨_, impossible⟩ => (nomatch impossible), fun spelled => absurd spelled other⟩

/-- What a call of `verifyTC` comes to look at: nothing of a certificate for another epoch or round or with another hash, else
its bit array and, with enough marks, its signature. -/
def TimeoutReadable (bls : BlsCommon Key Sig Digest) (timeoutVotingHash : Nat → Nat → Digest) (reactor : Reactor Key) (round : Nat)
    (payload : TimeoutPayload Digest) : Prop :=
  payload.epoch ≠ reactor.curEpoch ∨ payload.round ≠ round ∨ payload.msgHash ≠ timeoutVotingHash payload.epoch payload.round ∨
    BitArray.Spelled payload.bitArrayStr ∧
      (majorityTwoThird (timeoutMarks payload.bitArrayStr % 2 ^ 32) (reactor.committee.length % 2 ^ 32) = true →
        ∃ sig, bls.sigFromBytes payload.aggSig = .ok sig)

theorem verifyTC_returns [DecidableEq Digest] (bls : BlsCommon Key Sig Digest)
    (timeoutVotingHash : Nat → Nat → Digest) (reactor : Reactor Key) (round : Nat) (payload : TimeoutPayload Digest)
    (holds : TimeoutCert.Holds payload.bitArrayStr array) :
    (∃ result, verifyTC bls timeoutVotingHash reactor
      (some ⟨payload.epoch, payload.round, array, payload.msgHash, payload.aggSig⟩) round = .ok result) ↔
      TimeoutReadable bls timeoutVotingHash reactor round payload := by
  unfold verifyTC TimeoutReadable
  by_cases place : payload.epoch ≠ reactor.curEpoch ∨ payload.round ≠ round
  · simp only [if_pos place]
    exact ⟨fun _ => place.elim Or.inl fun other => Or.inr (Or.inl other), fun _ => ⟨_, rfl⟩⟩
  by_cases hash : payload.msgHash ≠ timeoutVotingHash payload.epoch payload.round
  · simp only [if_neg place, if_pos hash]
    exact ⟨fun _ => Or.inr (Or.inr (Or.inl hash)), fun _ => ⟨_, rfl⟩⟩
  simp only [if_neg place, if_neg hash, Exec.bind_eq_ok, Exec.deref_eq_ok, reactor.committeeSize_eq]
  constructor
  · rintro ⟨result, found, rfl, ran⟩
    refine Or.inr (Or.inr (Or.inr ⟨(isSome_iff_spelled holds).mp ⟨found, rfl⟩, fun enough => ?_⟩))
    rw [count_of_holds holds, if_neg (by rw [enough]; decide)] at ran
    obtain ⟨_, freed, _⟩ := Exec.bind_eq_ok.mp ran
    exact freeSignature_eq_ok.mp freed
  · rintro (other | other | other | ⟨spelled, signed⟩)
    · exact absurd (Or.inl other) place
    · exact absurd (Or.inr other) place
    · exact absurd other hash
    · obtain ⟨found, rfl⟩ := (isSome_iff_spelled holds).mpr spelled
      simp only [Option.some.injEq, exists_eq_left', count_of_holds holds]
      by_cases enough : majorityTwoThird (timeoutMarks payload.bitArrayStr % 2 ^ 32) (reactor.committee.length % 2 ^ 32) = false
      · exact ⟨_, by rw [if_pos enough]⟩
      · have freed : freeSignature bls payload.aggSig = .ok () := freeSignature_eq_ok.mpr (signed (by simpa using enough))
        simp only [if_neg enough, freed, Exec.ok_bind]
        cases checkAggregate bls payload.aggSig payload.msgHash (voters (some found) reactor.committee) with
        | error reason => exact ⟨_, rfl⟩
        | ok valid => exact ⟨_, rfl⟩

theorem string_returns {tc : TimeoutCert Digest} :
    (∃ result, TimeoutCert.string (some tc) = .ok result) ↔ ∃ array, tc.bitArray = some array := by
  unfold TimeoutCert.string
  cases found : tc.bitArray with
  | none => simp [found]
  | some array => simp [found]

/-- When each function returns. The RLP decoder of the payload and the signature scheme are given. -/
theorem certificates_return_iff [DecidableEq Digest] (hashing : Hashing Digest Address) (bls : BlsCommon Key Sig Digest)
    (timeoutVotingHash : Nat → Nat → Digest) (reactor : Reactor Key) (committee : List (Validator Key))
    (block : Block Digest Address Tx) (qc : QuorumCert Digest) (decode : Bytes → Except String (TimeoutPayload Digest))
    (stream : Bytes) (round : Nat) :
    ((∃ result, qc.voterBitArray = .ok result) ↔
      qc.voterBitArrayStr = [] ∨ ∃ letters, lettersOf qc.voterBitArrayStr = some letters ∧ letters ≠ []) ∧
    ((∃ result, block.verifyQC hashing qc bls committee = .ok result) ↔
      block.number = qc.qcHeight ∧ (block.number = 0 ∨ block.number = 1) ∨ qc.voterMsgHash ≠ block.votingHash hashing ∨
        ∃ letters, lettersOf qc.voterBitArrayStr = some letters ∧ BitArray.Bits letters ∧
          Signed bls committee.length letters qc.voterAggSig) ∧
    ((∃ result, TimeoutCert.decodeRLP decode stream = .ok result) ↔
      ∀ payload, decode stream = .ok payload → payload.bitArrayStr ≠ [BitArray.quote, BitArray.quote]) ∧
    ∀ payload tc, decode stream = .ok payload → TimeoutCert.decodeRLP decode stream = .ok (.ok tc) →
      ((∃ result, TimeoutCert.string (some tc) = .ok result) ↔ BitArray.Spelled payload.bitArrayStr) ∧
      ((∃ result, verifyTC bls timeoutVotingHash reactor (some tc) round = .ok result) ↔
        TimeoutReadable bls timeoutVotingHash reactor round payload) := by
  refine ⟨voterBitArray_returns _, verifyQC_returns _ _ _ _ _, TimeoutCert.decodeRLP_returns, fun payload tc isPayload decoded => ?_⟩
  obtain ⟨other, isOther, holds, isTC⟩ := TimeoutCert.decodeRLP_ok decoded
  obtain rfl : payload = other := Except.ok.inj (isPayload.symm.trans isOther)
  refine ⟨string_returns.trans (isSome_iff_spelled holds), ?_⟩
  rw [isTC]
  exact verifyTC_returns bls timeoutVotingHash reactor round payload holds

namespace Malformed

/-- Signatures of four bytes. -/
def fourBytes : BlsCommon Bytes Bytes (List Nat) :=
  { (listedSigners : BlsCommon Bytes Bytes (List Nat)) with
    sigFromBytes := fun bytes => if bytes.length = 4 then .ok bytes else .error "bls.FromBytes: Signature length mismatch." }

def block : Block (List Nat) Nat Unit := emptyBlock listHashing

def certificate (text aggSig : Bytes) : QuorumCert (List Nat) := ⟨2, 0, 0, text, block.votingHash listHashing, aggSig⟩

def verdict (text aggSig : Bytes) : Exec (Except String Bool) :=
  block.verifyQC listHashing (certificate text aggSig) fourBytes (numberedCommittee 4)

def timeout (text aggSig : Bytes) : Bytes → Except String (TimeoutPayload (List Nat)) := fun _ => .ok ⟨0, 3, text, [0, 3], aggSig⟩

def timeoutVerdict (array : Option BitArray) (aggSig : Bytes) : Exec Bool :=
  verifyTC fourBytes (fun epoch round => [epoch, round]) (plainReactor (numberedCommittee 4)) (some ⟨0, 3, array, [0, 3], aggSig⟩) 3

/-- The texts `BA{4:xxxx}` and `"xxxx"`. -/
def fourVotes : Bytes := [66, 65, 123, 52, 58, 120, 120, 120, 120, 125]
def fourTimeouts : Bytes := [34, 120, 120, 120, 120, 34]

end Malformed

open Malformed in
theorem whole_certificates_return : (∃ result, (certificate fourVotes [0, 1, 2, 3]).voterBitArray = .ok result) ∧
    (∃ result, verdict fourVotes [0, 1, 2, 3] = .ok result) ∧
    ∃ tc, TimeoutCert.decodeRLP (timeout fourTimeouts [0, 1, 2, 3]) [] = .ok (.ok tc) ∧
      (∃ result, TimeoutCert.string (some tc) = .ok result) ∧
      ∃ result, verifyTC fourBytes (fun epoch round => [epoch, round]) (plainReactor (numberedCommittee 4)) (some tc) 3 = .ok result := by
  obtain ⟨parsed, verified, decoded, read⟩ := certificates_return_iff listHashing fourBytes (fun epoch round => [epoch, round])
    (plainReactor (numberedCommittee 4)) (numberedCommittee 4) block (certificate fourVotes [0, 1, 2, 3])
    (timeout fourTimeouts [0, 1, 2, 3]) [] 3
  have letters : lettersOf fourVotes = some [120, 120, 120, 120] := by decide +kernel
  have spelled : BitArray.Spelled fourTimeouts := Or.inr ⟨[120, 120, 120, 120], by decide, by decide +kernel⟩
  have isTC : TimeoutCert.decodeRLP (timeout fourTimeouts [0, 1, 2, 3]) [] =
      .ok (.ok ⟨0, 3, some (BitArray.ofLetters [120, 120, 120, 120]), [0, 3], [0, 1, 2, 3]⟩) := by decide +kernel
  obtain ⟨printed, checked⟩ := read _ _ rfl isTC
  exact ⟨parsed.mpr (Or.inr ⟨_, letters, by decide⟩),
    verified.mpr (Or.inr (Or.inr ⟨_, letters, by decide +kernel, fun _ => ⟨[0, 1, 2, 3], by decide⟩⟩)), _, isTC, printed.mpr spelled,
    checked.mpr (Or.inr (Or.inr (Or.inr ⟨spelled, fun _ => ⟨[0, 1, 2, 3], by decide⟩⟩)))⟩

open Malformed in
/-- A text of three letters, one without a colon and one without bits; no text; no array; a signature of no bytes. -/
theorem malformed_certificates_panic : (certificate [66, 65, 123] []).voterBitArray = .error .outOfRange ∧
    (certificate [66, 65, 123, 52, 125] []).voterBitArray = .error .outOfRange ∧
    (certificate [66, 65, 123, 48, 58, 125] []).voterBitArray = .error .nilDereference ∧
    verdict [] [0, 1, 2, 3] = .error .nilDereference ∧
    verdict fourVotes [] = .error .nilDereference ∧
    TimeoutCert.decodeRLP (timeout [34, 34] []) [] = .error .nilDereference ∧
    (∃ tc, TimeoutCert.decodeRLP (timeout [] []) [] = .ok (.ok tc) ∧ TimeoutCert.string (some tc) = .error .nilDereference) ∧
    timeoutVerdict none [0, 1, 2, 3] = .error .nilDereference ∧
    timeoutVerdict (some (BitArray.ofLetters [120, 120, 120, 120])) [] = .error .nilDereference := by
  refine ⟨rfl, by decide +kernel, by decide +kernel, rfl, by decide +kernel, rfl, ⟨⟨0, 3, none, [0, 3], []⟩, rfl, rfl⟩, rfl,
    by decide +kernel⟩

end MeterPov.Consensus
