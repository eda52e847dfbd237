import ComptoMiningPool.JavaScript.Buffer

/-
This file models the UTF-8 decoder of the language, which replaces each ill-formed part, and proves how
a decoding depends on where its input is cut.
-/

namespace JavaScript.Utf8

/-- A begun sequence keeps its value so far, the bounds of its next byte, and how many bytes follow that
one. -/
structure Pending where
  codePoint : ℕ
  more : ℕ
  lower : ℕ
  upper : ℕ
  range : 0x80 ≤ lower ∧ upper ≤ 0xBF
  large : 2 ≤ codePoint ∨ 0 < more ∧ (1 ≤ codePoint ∨ 0x90 ≤ lower)

/-- This character stands for each ill-formed part. -/
def replacement : Char := '\uFFFD'

/-- A lead byte begins a sequence. Some lead bytes narrow the bounds of the second byte. -/
def lead (byte : UInt8) : Option Pending :=
  if two : 0xC2 ≤ byte.toNat ∧ byte.toNat ≤ 0xDF then
    some ⟨byte.toNat - 0xC0, 0, 0x80, 0xBF, by omega, by omega⟩
  else if three : 0xE0 ≤ byte.toNat ∧ byte.toNat ≤ 0xEF then
    some ⟨byte.toNat - 0xE0, 1, if byte.toNat = 0xE0 then 0xA0 else 0x80,
      if byte.toNat = 0xED then 0x9F else 0xBF, by split <;> split <;> omega, by split <;> omega⟩
  else if four : 0xF0 ≤ byte.toNat ∧ byte.toNat ≤ 0xF4 then
    some ⟨byte.toNat - 0xF0, 2, if byte.toNat = 0xF0 then 0x90 else 0x80,
      if byte.toNat = 0xF4 then 0x8F else 0xBF, by split <;> split <;> omega, by split <;> omega⟩
  else none

/-- A byte outside a sequence is a character, a lead byte, or ill-formed. -/
def first (byte : UInt8) : List Char × Option Pending :=
  if byte.toNat < 0x80 then ([Char.ofNat byte.toNat], none)
  else match lead byte with
    | some pending => ([], some pending)
    | none => ([replacement], none)

/-- The next byte continues the sequence when it lies within the bounds. -/
def Pending.Accepts (pending : Pending) (byte : UInt8) : Prop :=
  pending.lower ≤ byte.toNat ∧ byte.toNat ≤ pending.upper

instance (pending : Pending) (byte : UInt8) : Decidable (pending.Accepts byte) :=
  inferInstanceAs (Decidable (_ ∧ _))

def Pending.value (pending : Pending) (byte : UInt8) : ℕ :=
  64 * pending.codePoint + (byte.toNat - 0x80)

theorem Pending.large_value {pending : Pending} {byte : UInt8} (accepted : pending.Accepts byte) :
    2 ≤ pending.value byte := by
  have range := pending.range
  have large := pending.large
  unfold Accepts at accepted
  unfold value
  omega

/-- An accepted byte ends its sequence with a character, or the sequence goes on. -/
def Pending.next (pending : Pending) (byte : UInt8) (accepted : pending.Accepts byte) :
    List Char × Option Pending :=
  match pending.more with
  | 0 => ([Char.ofNat (pending.value byte)], none)
  | more + 1 => ([], some ⟨pending.value byte, more, 0x80, 0xBF, by omega,
      .inl (pending.large_value accepted)⟩)

/-- A byte that does not continue its sequence ends it as ill-formed and is read again. -/
def step (state : Option Pending) (byte : UInt8) : List Char × Option Pending :=
  match state with
  | none => first byte
  | some pending =>
      if accepted : pending.Accepts byte then pending.next byte accepted
      else (replacement :: (first byte).1, (first byte).2)

/-- An unfinished sequence is ill-formed at the end of the input. -/
def finish : Option Pending → List Char
  | none => []
  | some _ => [replacement]

def decodeFrom : Option Pending → Bytes → List Char
  | state, [] => finish state
  | state, byte :: bytes => (step state byte).1 ++ decodeFrom (step state byte).2 bytes

/-- This is `buffer.toString()`. -/
def decode (bytes : Bytes) : List Char := decodeFrom none bytes

def stateAfter : Option Pending → Bytes → Option Pending
  | state, [] => state
  | state, byte :: bytes => stateAfter (step state byte).2 bytes

/-- The characters that are decided before the end of the input is known. -/
def emitted : Option Pending → Bytes → List Char
  | _, [] => []
  | state, byte :: bytes => (step state byte).1 ++ emitted (step state byte).2 bytes

/-- The first byte continues the sequence of the state. -/
def continues (state : Option Pending) (bytes : Bytes) : Bool :=
  match state, bytes with
  | some pending, byte :: _ => pending.Accepts byte
  | _, _ => false

/-- A cut splits a unit when its second part continues the sequence that its first part leaves open. A
unit is one character or one ill-formed part. -/
def splitsUnit (before after : Bytes) : Bool := continues (stateAfter none before) after

section Cuts

variable {state : Option Pending} {before after bytes : Bytes}

theorem decodeFrom_append (state : Option Pending) (before after : Bytes) :
    decodeFrom state (before ++ after) =
      emitted state before ++ decodeFrom (stateAfter state before) after := by
  induction before generalizing state with
  | nil => rfl
  | cons byte before ih =>
      rw [List.cons_append, decodeFrom, ih, emitted, stateAfter, List.append_assoc]

theorem decodeFrom_eq (state : Option Pending) (bytes : Bytes) :
    decodeFrom state bytes = emitted state bytes ++ finish (stateAfter state bytes) := by
  have whole := decodeFrom_append state bytes []
  rwa [List.append_nil, decodeFrom] at whole

theorem stateAfter_append (state : Option Pending) (before after : Bytes) :
    stateAfter state (before ++ after) = stateAfter (stateAfter state before) after := by
  induction before generalizing state with
  | nil => rfl
  | cons byte before ih => exact ih (step state byte).2

/-- A byte that does not continue a sequence leaves the decoder as if no sequence had begun. -/
theorem step_of_not_continues {byte : UInt8} (broken : continues state (byte :: bytes) = false) :
    step state byte = (finish state ++ (first byte).1, (first byte).2) := by
  cases state with
  | none => rfl
  | some pending =>
      have refused : ¬ pending.Accepts byte := by simpa [continues] using broken
      rw [step, dif_neg refused]
      rfl

/-- A cut between two units decodes both parts apart. -/
theorem decodeFrom_of_not_continues (broken : continues state bytes = false) :
    decodeFrom state bytes = finish state ++ decode bytes := by
  cases bytes with
  | nil => exact (List.append_nil _).symm
  | cons byte bytes =>
      rw [decodeFrom, step_of_not_continues broken, List.append_assoc]
      rfl

theorem stateAfter_of_not_continues (broken : continues state bytes = false) (nonempty : bytes ≠ []) :
    stateAfter state bytes = stateAfter none bytes := by
  cases bytes with
  | nil => exact absurd rfl nonempty
  | cons byte bytes =>
      rw [stateAfter, step_of_not_continues broken]
      rfl

theorem decode_append_of_not_splits (whole : splitsUnit before after = false) :
    decode (before ++ after) = decode before ++ decode after := by
  rw [decode, decodeFrom_append, decodeFrom_of_not_continues whole, ← List.append_assoc,
    ← decodeFrom_eq]
  rfl

end Cuts

theorem splitsUnit_nil (after : Bytes) : splitsUnit [] after = false := rfl

/-- A cut between two units leaves the later cuts as they are. -/
theorem splitsUnit_append {first second third : Bytes} (whole : splitsUnit first (second ++ third) = false) :
    splitsUnit (first ++ second) third = splitsUnit second third := by
  cases second with
  | nil =>
      rw [List.append_nil, splitsUnit_nil]
      exact whole
  | cons byte second =>
      have broken : continues (stateAfter none first) (byte :: second) = false := by
        rw [← whole, splitsUnit, List.cons_append]
        cases stateAfter none first <;> rfl
      rw [splitsUnit, splitsUnit, stateAfter_append,
        stateAfter_of_not_continues broken (List.cons_ne_nil _ _)]

/-- A continuation byte outside a sequence is ill-formed. -/
theorem first_of_accepts {pending : Pending} {byte : UInt8} (accepted : pending.Accepts byte) :
    first byte = ([replacement], none) := by
  have range := pending.range
  unfold Pending.Accepts at accepted
  rw [first, if_neg (by omega), lead, dif_neg (by omega), dif_neg (by omega), dif_neg (by omega)]

section Marks

variable {mark : UInt8}

theorem toNat_ofNat {value : ℕ} :
    (Char.ofNat value).toNat = if value.isValidChar then value else 0 := by
  by_cases valid : value.isValidChar
  · rw [Char.ofNat, dif_pos valid, if_pos valid]
    exact UInt32.toNat_ofNatLT
  · rw [Char.ofNat, dif_neg valid, if_neg valid]
    rfl

theorem toNat_ofNat_of_small {value : ℕ} (small : value < 0x80) : (Char.ofNat value).toNat = value := by
  rw [toNat_ofNat, if_pos (.inl (by omega))]

/-- Only its own byte prints an ASCII character. -/
theorem ofNat_ne_of_large {value small : ℕ} (large : 0x80 ≤ value) (ascii : 0 < small ∧ small < 0x80) :
    Char.ofNat value ≠ Char.ofNat small := by
  intro same
  have numbers : (Char.ofNat value).toNat = small := by
    rw [same, toNat_ofNat_of_small ascii.2]
  rw [toNat_ofNat] at numbers
  split at numbers <;> omega

theorem replacement_ne (ascii : 0 < mark.toNat ∧ mark.toNat < 0x80) :
    replacement ≠ Char.ofNat mark.toNat := by
  intro same
  have numbers := congrArg Char.toNat same
  rw [toNat_ofNat_of_small ascii.2] at numbers
  change 0xFFFD = mark.toNat at numbers
  omega

/-- A step prints an ASCII character exactly when it reads its byte. -/
theorem count_step (ascii : 0 < mark.toNat ∧ mark.toNat < 0x80) (state : Option Pending) (byte : UInt8) :
    (step state byte).1.count (Char.ofNat mark.toNat) = if byte = mark then 1 else 0 := by
  have other : 0x80 ≤ byte.toNat → byte ≠ mark := by
    rintro large rfl
    omega
  have begins : (first byte).1.count (Char.ofNat mark.toNat) = if byte = mark then 1 else 0 := by
    unfold first
    split
    · rename_i small
      by_cases same : byte = mark
      · rw [same]
        simp
      · have different : Char.ofNat byte.toNat ≠ Char.ofNat mark.toNat := by
          intro equal
          have numbers := congrArg Char.toNat equal
          rw [toNat_ofNat_of_small small, toNat_ofNat_of_small ascii.2] at numbers
          exact same (UInt8.toNat_inj.mp numbers)
        rw [if_neg same]
        simp [different]
    · rename_i large
      rw [if_neg (other (Nat.not_lt.mp large))]
      cases lead byte with
      | some pending => rfl
      | none => simp [replacement_ne ascii]
  cases state with
  | none => exact begins
  | some pending =>
      rw [step]
      split
      · rename_i accepted
        have range := pending.range
        have bounds := accepted
        unfold Pending.Accepts at bounds
        rw [if_neg (other (by omega)), Pending.next]
        split
        · rename_i last
          have large : 0x80 ≤ pending.value byte := by
            have := pending.large
            unfold Pending.value
            omega
          simp [ofNat_ne_of_large large ascii]
        · rfl
      · rw [List.count_cons_of_ne (replacement_ne ascii), begins]

/-- A decoding has as many copies of an ASCII character as its input has of its byte. -/
theorem count_decodeFrom (ascii : 0 < mark.toNat ∧ mark.toNat < 0x80) (state : Option Pending)
    (bytes : Bytes) : (decodeFrom state bytes).count (Char.ofNat mark.toNat) = bytes.count mark := by
  induction bytes generalizing state with
  | nil =>
      cases state with
      | none => rfl
      | some pending => simp [decodeFrom, finish, replacement_ne ascii]
  | cons byte bytes ih =>
      rw [decodeFrom, List.count_append, count_step ascii, ih, List.count_cons, Nat.add_comm]
      simp

theorem mem_decodeFrom_iff (ascii : 0 < mark.toNat ∧ mark.toNat < 0x80) (state : Option Pending)
    (bytes : Bytes) : Char.ofNat mark.toNat ∈ decodeFrom state bytes ↔ mark ∈ bytes := by
  rw [← List.count_pos_iff, count_decodeFrom ascii, List.count_pos_iff]

end Marks

end JavaScript.Utf8
