import Mathlib.Tactic
import Mathlib.Data.Int.Log

/-
This file models the numbers of the language: doubles, 32-bit operators, and base-16 text.
-/

namespace JavaScript

/-- A number is not-a-number, an infinity, or a finite value. Both zeros are the value 0. -/
inductive Number where
  | nan
  | infinite (negative : Bool)
  | finite (value : ℚ)
  deriving DecidableEq

/-- Ties round to the even neighbour. -/
def roundHalfEven (value : ℚ) : ℤ :=
  let low := ⌊value⌋
  if value - low < 1 / 2 then low
  else if 1 / 2 < value - low then low + 1
  else if low % 2 = 0 then low else low + 1

/-- A double keeps 53 significant bits. Integers up to 2^53 need no rounding. -/
def roundDouble (value : ℚ) : ℚ :=
  if value.den = 1 ∧ |value| ≤ 2 ^ 53 then value
  else
    let scale : ℤ := Int.log 2 |value| - 52
    roundHalfEven (value / 2 ^ scale) * 2 ^ scale

namespace Number

/-- A magnitude of 2^1024 or more rounds to an infinity. -/
def ofRat (value : ℚ) : Number :=
  let rounded := roundDouble value
  if 2 ^ 1024 ≤ |rounded| then .infinite (rounded < 0) else .finite rounded

def ofNat (value : ℕ) : Number := .finite value

instance (value : ℕ) : OfNat Number value := ⟨ofNat value⟩

/-- Every comparison with not-a-number is false. -/
def le : Number → Number → Bool
  | .nan, _ => false
  | _, .nan => false
  | .infinite negative, .infinite negative' => negative || !negative'
  | .infinite negative, .finite _ => negative
  | .finite _, .infinite negative => !negative
  | .finite value, .finite value' => value ≤ value'

def sub : Number → Number → Number
  | .nan, _ => .nan
  | _, .nan => .nan
  | .infinite negative, .infinite negative' =>
      if negative = negative' then .nan else .infinite negative
  | .infinite negative, .finite _ => .infinite negative
  | .finite _, .infinite negative => .infinite (!negative)
  | .finite value, .finite value' => ofRat (value - value')

def mul : Number → Number → Number
  | .nan, _ => .nan
  | _, .nan => .nan
  | .infinite negative, .infinite negative' => .infinite (negative != negative')
  | .infinite negative, .finite value => if value = 0 then .nan else .infinite (negative != (value < 0))
  | .finite value, .infinite negative => if value = 0 then .nan else .infinite (negative != (value < 0))
  | .finite value, .finite value' => ofRat (value * value')

def div : Number → Number → Number
  | .nan, _ => .nan
  | _, .nan => .nan
  | .infinite _, .infinite _ => .nan
  | .infinite negative, .finite value => .infinite (negative != (value < 0))
  | .finite _, .infinite _ => 0
  | .finite value, .finite value' =>
      if value' = 0 then if value = 0 then .nan else .infinite (value < 0)
      else ofRat (value / value')

/-- The conversion to a big integer throws on every number that is not an integer. -/
def toBigInt : Number → Option ℤ
  | .finite value => if value.den = 1 then some value.num else none
  | _ => none

/-- The 32-bit operators drop the fraction and keep the low 32 bits. -/
def toInt32 : Number → BitVec 32
  | .finite value => BitVec.ofInt 32 (if 0 ≤ value then ⌊value⌋ else ⌈value⌉)
  | _ => 0

def ofInt32 (word : BitVec 32) : Number := .finite word.toInt

def and (left right : Number) : Number := ofInt32 (left.toInt32 &&& right.toInt32)

def or (left right : Number) : Number := ofInt32 (left.toInt32 ||| right.toInt32)

def not (value : Number) : Number := ofInt32 (~~~value.toInt32)

end Number

/-- The value of one base-16 digit of either case. -/
def hexDigit (digit : Char) : Option ℕ :=
  if '0' ≤ digit ∧ digit ≤ '9' then some (digit.toNat - 48)
  else if 'a' ≤ digit ∧ digit ≤ 'f' then some (digit.toNat - 87)
  else if 'A' ≤ digit ∧ digit ≤ 'F' then some (digit.toNat - 55)
  else none

/-- The digits before the first character that is no base-16 digit. -/
def hexPrefix : List Char → List ℕ
  | [] => []
  | character :: rest =>
      match hexDigit character with
      | some digit => digit :: hexPrefix rest
      | none => []

def hexValue (digits : List ℕ) : ℕ := digits.foldl (fun value digit => 16 * value + digit) 0

/-- The value of the base-16 digits that a text starts with. -/
def hexNumber (text : String) : ℕ := hexValue (hexPrefix text.toList)

/-- The white space and the line terminators that a number may start with. -/
def isWhitespace (character : Char) : Bool :=
  character.toNat ∈ [0x9, 0xA, 0xB, 0xC, 0xD, 0x20, 0xA0, 0x1680, 0x2028, 0x2029, 0x202F, 0x205F,
    0x3000, 0xFEFF] || (0x2000 ≤ character.toNat && character.toNat ≤ 0x200A)

/-- The sign of a text and what follows the sign. -/
def splitSign : List Char → Bool × List Char
  | '-' :: rest => (true, rest)
  | '+' :: rest => (false, rest)
  | text => (false, text)

def dropHexMarker : List Char → List Char
  | '0' :: 'x' :: rest => rest
  | '0' :: 'X' :: rest => rest
  | text => text

/-- This is `parseInt(text, 16)`. -/
def parseHex (text : String) : Number :=
  let signed := splitSign (text.toList.dropWhile isWhitespace)
  match hexPrefix (dropHexMarker signed.2) with
  | [] => .nan
  | digits => .ofRat (if signed.1 then -(hexValue digits : ℚ) else hexValue digits)

/-- This is `value.toString(16)` of a natural number. -/
def hexText (value : ℕ) : String := String.ofList (Nat.toDigits 16 value)

/-- This is `value.toString(16)` of a 32-bit number. A negative number prints its sign first. -/
def int32Text (word : BitVec 32) : String :=
  if word.toInt < 0 then "-" ++ hexText word.toInt.natAbs else hexText word.toNat

/-- This is `text.padStart(width, '0')`. -/
def padStart (width : ℕ) (text : String) : String := String.ofList (text.toList.leftpad width '0')

/-- The text consists of this many base-16 digits. -/
def HexDigits (count : ℕ) (text : String) : Prop :=
  text.toList.length = count ∧ ∀ c ∈ text.toList, (hexDigit c).isSome

instance (count : ℕ) (text : String) : Decidable (HexDigits count text) :=
  @instDecidableAnd _ _ _ (List.decidableBAll (fun c => (hexDigit c).isSome = true) text.toList)

theorem roundDouble_natCast {value : ℕ} (small : value ≤ 2 ^ 53) :
    roundDouble (value : ℚ) = value := by
  have bound : |(value : ℚ)| ≤ 2 ^ 53 := by
    rw [Nat.abs_cast]
    exact_mod_cast small
  rw [roundDouble, if_pos ⟨Rat.den_natCast value, bound⟩]

theorem Number.ofRat_natCast {value : ℕ} (small : value ≤ 2 ^ 53) :
    Number.ofRat (value : ℚ) = .ofNat value := by
  have fits : ¬ (2 : ℚ) ^ 1024 ≤ |(value : ℚ)| := by
    rw [Nat.abs_cast, not_le]
    calc (value : ℚ) ≤ 2 ^ 53 := by exact_mod_cast small
      _ < 2 ^ 1024 := pow_lt_pow_right₀ (by norm_num) (by norm_num)
  rw [Number.ofRat, roundDouble_natCast small]
  exact if_neg fits

@[simp] theorem Number.toInt32_ofNat (value : ℕ) :
    (Number.ofNat value).toInt32 = BitVec.ofNat 32 value := by
  have nonnegative : (0 : ℚ) ≤ value := Nat.cast_nonneg value
  simp only [ofNat, toInt32, if_pos nonnegative]
  rw [show ⌊(value : ℚ)⌋ = (value : ℤ) from Int.floor_natCast value]
  exact BitVec.ofInt_ofNat ..

theorem Number.ofNat_injective : Function.Injective Number.ofNat := by
  intro first second same
  exact Nat.cast_injective (Number.finite.inj same)

@[simp] theorem Number.toInt32_ofInt32 (word : BitVec 32) : (Number.ofInt32 word).toInt32 = word := by
  have truncated : (if (0 : ℚ) ≤ (word.toInt : ℚ) then ⌊(word.toInt : ℚ)⌋ else ⌈(word.toInt : ℚ)⌉) =
      word.toInt := by
    split <;> simp
  simp only [ofInt32, toInt32, truncated, BitVec.ofInt_toInt]

/-- A word below 2^31 reads back as a natural number. -/
theorem Number.ofInt32_of_lt {word : BitVec 32} (small : word.toNat < 2 ^ 31) :
    Number.ofInt32 word = .ofNat word.toNat := by
  have positive : word.toInt = word.toNat := BitVec.toInt_eq_toNat_of_lt (by omega)
  rw [ofInt32, ofNat, positive]
  rfl

theorem int32Text_of_lt {word : BitVec 32} (small : word.toNat < 2 ^ 31) :
    int32Text word = hexText word.toNat := by
  have positive : word.toInt = word.toNat := BitVec.toInt_eq_toNat_of_lt (by omega)
  rw [int32Text, if_neg (by omega)]

/-- Each digit that the language prints reads back as its own value. -/
theorem hexDigit_digitChar {digit : ℕ} (small : digit < 16) :
    hexDigit (Nat.digitChar digit) = some digit := by
  interval_cases digit <;> decide

theorem hexPrefix_append {left right : List Char} (digits : ∀ c ∈ left, (hexDigit c).isSome) :
    hexPrefix (left ++ right) = hexPrefix left ++ hexPrefix right := by
  induction left with
  | nil => rfl
  | cons c left ih =>
      obtain ⟨value, found⟩ := Option.isSome_iff_exists.mp (digits c List.mem_cons_self)
      have rest := ih fun c' member => digits c' (List.mem_cons_of_mem c member)
      simp only [List.cons_append, hexPrefix, found, rest]

theorem hexValue_append_digit (digits : List ℕ) (digit : ℕ) :
    hexValue (digits ++ [digit]) = 16 * hexValue digits + digit := by
  simp [hexValue, List.foldl_append]

/-- Every printed character is one of sixteen. -/
theorem forall_mem_toDigits {holds : Char → Prop} (printed : ∀ digit < 16, holds (Nat.digitChar digit))
    (value : ℕ) : ∀ c ∈ Nat.toDigits 16 value, holds c := by
  induction value using Nat.strong_induction_on with
  | _ value ih =>
      intro c member
      by_cases small : value < 16
      · rw [Nat.toDigits_of_lt_base small, List.mem_singleton] at member
        rw [member]
        exact printed value small
      · rw [Nat.toDigits_of_base_le (by norm_num) (by omega), List.mem_append] at member
        rcases member with member | member
        · exact ih (value / 16) (by omega) c member
        · rw [List.mem_singleton.mp member]
          exact printed _ (by omega)

/-- Every printed character is a base-16 digit. -/
theorem isSome_hexDigit_of_mem_toDigits (value : ℕ) :
    ∀ c ∈ Nat.toDigits 16 value, (hexDigit c).isSome := by
  apply forall_mem_toDigits
  intro digit small
  rw [hexDigit_digitChar small]
  rfl

/-- The printed digits carry the printed value. -/
theorem hexValue_toDigits (value : ℕ) : hexValue (hexPrefix (Nat.toDigits 16 value)) = value := by
  induction value using Nat.strong_induction_on with
  | _ value ih =>
      by_cases small : value < 16
      · simp [Nat.toDigits_of_lt_base small, hexPrefix, hexDigit_digitChar small, hexValue]
      · have last : hexDigit (Nat.digitChar (value % 16)) = some (value % 16) :=
          hexDigit_digitChar (by omega)
        rw [Nat.toDigits_of_base_le (by norm_num) (by omega),
          hexPrefix_append (isSome_hexDigit_of_mem_toDigits _)]
        simp only [hexPrefix, last, hexValue_append_digit]
        rw [ih (value / 16) (by omega)]
        omega

/-- A printed number has as many digits as its size demands. -/
theorem hexDigits_hexText {value count : ℕ} (least : 16 ^ count ≤ value)
    (most : value < 16 ^ (count + 1)) : HexDigits (count + 1) (hexText value) := by
  have upper : (Nat.toDigits 16 value).length ≤ count + 1 :=
    (Nat.length_toDigits_le_iff (by norm_num) (Nat.succ_pos count)).mpr most
  have lower : count < (Nat.toDigits 16 value).length := by
    by_contra short
    cases count with
    | zero => exact short Nat.length_toDigits_pos
    | succ count =>
        have small := (Nat.length_toDigits_le_iff (by norm_num) (Nat.succ_pos count)).mp
          (Nat.not_lt.mp short)
        omega
  rw [HexDigits, hexText, String.toList_ofList]
  exact ⟨by omega, isSome_hexDigit_of_mem_toDigits value⟩

theorem hexText_injective : Function.Injective hexText := by
  intro first second equal
  have digits : Nat.toDigits 16 first = Nat.toDigits 16 second := String.ofList_injective equal
  rw [← hexValue_toDigits first, digits, hexValue_toDigits]

/-- A base-16 digit lies in one of three ranges. -/
theorem toNat_of_hexDigit {c : Char} (digit : (hexDigit c).isSome) :
    (48 ≤ c.toNat ∧ c.toNat ≤ 57) ∨ (97 ≤ c.toNat ∧ c.toNat ≤ 102) ∨
      (65 ≤ c.toNat ∧ c.toNat ≤ 70) := by
  simp only [hexDigit, Char.le_def, UInt32.le_iff_toNat_le] at digit
  split_ifs at digit with decimal lower upper
  · exact .inl decimal
  · exact .inr (.inl lower)
  · exact .inr (.inr upper)
  · cases digit

theorem isWhitespace_of_hexDigit {c : Char} (digit : (hexDigit c).isSome) :
    isWhitespace c = false := by
  have range := toNat_of_hexDigit digit
  simp only [isWhitespace, List.mem_cons, List.not_mem_nil, or_false, Bool.or_eq_false_iff,
    decide_eq_false_iff_not, Bool.and_eq_false_iff, not_or]
  omega

theorem splitSign_of_hexDigit {c : Char} (rest : List Char) (digit : (hexDigit c).isSome) :
    splitSign (c :: rest) = (false, c :: rest) := by
  unfold splitSign
  split
  · next equal => injection equal with head; subst head; exact absurd digit (by decide)
  · next equal => injection equal with head; subst head; exact absurd digit (by decide)
  · rfl

theorem dropHexMarker_of_hexDigits {text : List Char} (digits : ∀ c ∈ text, (hexDigit c).isSome) :
    dropHexMarker text = text := by
  unfold dropHexMarker
  split
  · exact absurd (digits 'x' (by simp)) (by decide)
  · exact absurd (digits 'X' (by simp)) (by decide)
  · rfl

/-- A text that starts with a digit parses without its marker. -/
theorem parseHex_of_first {c : Char} {rest : List Char} {digit : ℕ} {digits : List ℕ}
    (first : (hexDigit c).isSome) (found : hexPrefix (dropHexMarker (c :: rest)) = digit :: digits) :
    parseHex (String.ofList (c :: rest)) = .ofRat (hexValue (digit :: digits)) := by
  have untrimmed : (c :: rest).dropWhile isWhitespace = c :: rest :=
    List.dropWhile_cons_of_neg (by simp [isWhitespace_of_hexDigit first])
  simp only [parseHex, String.toList_ofList, untrimmed, splitSign_of_hexDigit rest first, found]
  rfl

theorem exists_hexPrefix {c : Char} {rest : List Char} (first : (hexDigit c).isSome) :
    ∃ digit digits, hexPrefix (c :: rest) = digit :: digits := by
  obtain ⟨value, found⟩ := Option.isSome_iff_exists.mp first
  exact ⟨value, hexPrefix rest, by simp only [hexPrefix, found]⟩

/-- A text of base-16 digits parses to the value of all its digits. -/
theorem parseHex_ofList {text : List Char} (nonempty : text ≠ [])
    (digits : ∀ c ∈ text, (hexDigit c).isSome) :
    parseHex (String.ofList text) = .ofRat (hexValue (hexPrefix text)) := by
  obtain ⟨c, rest, rfl⟩ := List.exists_cons_of_ne_nil nonempty
  have first := digits c List.mem_cons_self
  obtain ⟨digit, others, found⟩ := @exists_hexPrefix c rest first
  rw [found]
  apply parseHex_of_first first
  rw [dropHexMarker_of_hexDigits digits, found]

theorem hexDigit_lt {c : Char} {digit : ℕ} (found : hexDigit c = some digit) : digit < 16 := by
  simp only [hexDigit, Char.le_def, UInt32.le_iff_toNat_le] at found
  split_ifs at found with decimal lower upper
  · obtain rfl := Option.some.inj found
    have : c.toNat ≤ 57 := decimal.2
    omega
  · obtain rfl := Option.some.inj found
    have : c.toNat ≤ 102 := lower.2
    omega
  · obtain rfl := Option.some.inj found
    have : c.toNat ≤ 70 := upper.2
    omega

/-- A text is longer than the base-16 digits of its value. -/
theorem hexValue_lt (text : List Char) : hexValue (hexPrefix text) < 16 ^ text.length := by
  have prefixes : ∀ (text : List Char) (value : ℕ),
      (hexPrefix text).foldl (fun value digit => 16 * value + digit) value <
        (value + 1) * 16 ^ text.length := by
    intro text
    induction text with
    | nil => simp [hexPrefix]
    | cons c text ih =>
        intro value
        rw [hexPrefix, List.length_cons, pow_succ']
        cases found : hexDigit c with
        | none =>
            have := Nat.one_le_pow text.length 16 (by norm_num)
            simp only [List.foldl_nil]
            nlinarith
        | some digit =>
            have := hexDigit_lt found
            calc (hexPrefix text).foldl (fun value digit => 16 * value + digit) (16 * value + digit)
                < (16 * value + digit + 1) * 16 ^ text.length := ih _
              _ ≤ ((value + 1) * 16) * 16 ^ text.length := Nat.mul_le_mul_right _ (by omega)
              _ = (value + 1) * (16 * 16 ^ text.length) := Nat.mul_assoc _ _ _
  simpa [hexValue] using prefixes text 0

/-- Up to thirteen base-16 digits parse to their exact value. -/
theorem parseHex_of_hexDigits {count : ℕ} {text : String} (digits : HexDigits count text)
    (nonempty : 0 < count) (short : count ≤ 13) : parseHex text = .ofNat (hexNumber text) := by
  obtain ⟨length, all⟩ := digits
  have some : text.toList ≠ [] := by
    intro empty
    rw [empty] at length
    exact absurd length nonempty.ne
  have bound : hexNumber text ≤ 2 ^ 53 := by
    have below := hexValue_lt text.toList
    have power : 16 ^ text.toList.length ≤ 16 ^ 13 := Nat.pow_le_pow_right (by norm_num) (by omega)
    calc hexNumber text ≤ 16 ^ text.toList.length := below.le
      _ ≤ 16 ^ 13 := power
      _ ≤ 2 ^ 53 := by norm_num
  have parsed := parseHex_ofList some all
  rw [String.ofList_toList] at parsed
  rw [parsed]
  exact Number.ofRat_natCast bound

theorem hexNumber_lt {count : ℕ} {text : String} (digits : HexDigits count text) :
    hexNumber text < 16 ^ count := by
  rw [← digits.1]
  exact hexValue_lt text.toList

/-- A printed number parses back. -/
theorem parseHex_hexText {value : ℕ} (small : value ≤ 2 ^ 53) :
    parseHex (hexText value) = .ofNat value := by
  rw [hexText, parseHex_ofList Nat.toDigits_ne_nil (isSome_hexDigit_of_mem_toDigits value),
    hexValue_toDigits, Number.ofRat_natCast small]

theorem hexPrefix_leftpad (width : ℕ) (text : List Char) :
    hexValue (hexPrefix (text.leftpad width '0')) = hexValue (hexPrefix text) := by
  have zeros : ∀ count, hexPrefix (List.replicate count '0' ++ text) =
      List.replicate count 0 ++ hexPrefix text := by
    intro count
    induction count with
    | zero => rfl
    | succ count ih =>
        have zero : hexDigit '0' = some 0 := by decide
        simp only [List.replicate_succ, List.cons_append, hexPrefix, zero, ih]
  have unchanged : ∀ count, hexValue (List.replicate count 0 ++ hexPrefix text) =
      hexValue (hexPrefix text) := by
    intro count
    induction count with
    | zero => rfl
    | succ count ih => exact ih
  rw [List.leftpad, zeros, unchanged]

theorem isSome_hexDigit_of_mem_leftpad (width value : ℕ) :
    ∀ c ∈ (Nat.toDigits 16 value).leftpad width '0', (hexDigit c).isSome := by
  intro c member
  rcases List.mem_append.mp member with member | member
  · rw [List.eq_of_mem_replicate member]
    rfl
  · exact isSome_hexDigit_of_mem_toDigits value c member

/-- Leading zeros do not change the parsed number. -/
theorem parseHex_padStart {value : ℕ} (width : ℕ) (small : value ≤ 2 ^ 53) :
    parseHex (padStart width (hexText value)) = .ofNat value := by
  have nonempty : (Nat.toDigits 16 value).leftpad width '0' ≠ [] := by
    simp [List.leftpad, Nat.toDigits_ne_nil]
  rw [padStart, hexText, String.toList_ofList,
    parseHex_ofList nonempty (isSome_hexDigit_of_mem_leftpad width value), hexPrefix_leftpad,
    hexValue_toDigits, Number.ofRat_natCast small]

/-- A padded number that fits its width has exactly that many digits. -/
theorem hexDigits_padStart {value width : ℕ} (wide : 0 < width) (fits : value < 16 ^ width) :
    HexDigits width (padStart width (hexText value)) := by
  have length : (Nat.toDigits 16 value).length ≤ width :=
    (Nat.length_toDigits_le_iff (by norm_num) wide).mpr fits
  rw [HexDigits, padStart, hexText, String.toList_ofList, String.toList_ofList]
  refine ⟨?_, isSome_hexDigit_of_mem_leftpad width value⟩
  rw [List.length_leftpad]
  omega

/-- The text consists of this many base-16 digits in lower case. -/
def LowerHexDigits (count : ℕ) (text : String) : Prop :=
  text.toList.length = count ∧ ∀ c ∈ text.toList, c ∈ "0123456789abcdef".toList

/-- A padded number that fits its width is printed in lower case. -/
theorem lowerHexDigits_padStart {value width : ℕ} (wide : 0 < width) (fits : value < 16 ^ width) :
    LowerHexDigits width (padStart width (hexText value)) := by
  refine ⟨(hexDigits_padStart wide fits).1, ?_⟩
  rw [padStart, hexText, String.toList_ofList, String.toList_ofList]
  intro c member
  rcases List.mem_append.mp member with member | member
  · rw [List.eq_of_mem_replicate member]
    decide
  · exact forall_mem_toDigits (by decide) value c member

/-- A padded number reads back digit by digit. -/
theorem hexNumber_padStart (width value : ℕ) : hexNumber (padStart width (hexText value)) = value := by
  rw [hexNumber, padStart, hexText, String.toList_ofList, String.toList_ofList, hexPrefix_leftpad,
    hexValue_toDigits]

/-- A text of up to thirteen digits, the empty one included, has the word of its number. -/
theorem toInt32_parseHex {count : ℕ} {text : String} (digits : HexDigits count text)
    (short : count ≤ 13) : (parseHex text).toInt32 = BitVec.ofNat 32 (hexNumber text) := by
  rcases Nat.eq_zero_or_pos count with rfl | nonempty
  · obtain rfl : text = "" := String.toList_injective (List.length_eq_zero_iff.mp digits.1)
    decide
  · rw [parseHex_of_hexDigits digits nonempty short, Number.toInt32_ofNat]

/-- The printed digits are in lower case. -/
theorem toLower_hexText (value : ℕ) : (hexText value).toLower = hexText value := by
  have digits : ∀ c ∈ Nat.toDigits 16 value, c.toLower = c := forall_mem_toDigits (by decide) value
  have lowered : (Nat.toDigits 16 value).map Char.toLower = Nat.toDigits 16 value := by
    conv_rhs => rw [← List.map_id (Nat.toDigits 16 value)]
    exact List.map_congr_left digits
  apply String.toList_injective
  show ((hexText value).map Char.toLower).toList = _
  rw [String.toList_map, hexText, String.toList_ofList, lowered]

end JavaScript
