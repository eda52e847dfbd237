import ComptoMiningPool.JavaScript.Number

/-
This file models byte buffers, their base-16 text, and the four-byte swap.
-/

namespace JavaScript

abbrev Bytes := List UInt8

def byteDigits (byte : UInt8) : List Char :=
  [Nat.digitChar (byte.toNat / 16), Nat.digitChar (byte.toNat % 16)]

/-- This is `buffer.toString('hex')`. -/
def Bytes.toHex (bytes : Bytes) : String := String.ofList (bytes.flatMap byteDigits)

/-- Decoding stops at the first pair that is not two base-16 digits. -/
def decodeHexDigits : List Char → Bytes
  | high :: low :: rest =>
      match hexDigit high, hexDigit low with
      | some upper, some lower => UInt8.ofNat (16 * upper + lower) :: decodeHexDigits rest
      | _, _ => []
  | _ => []

/-- This is `Buffer.from(text, 'hex')`. -/
def Bytes.ofHex (text : String) : Bytes := decodeHexDigits text.toList

/-- This is `buffer.swap32()`. It throws when the length is no multiple of four. -/
def swap32 : Bytes → Option Bytes
  | [] => some []
  | a :: b :: c :: d :: rest => (swap32 rest).map ([d, c, b, a] ++ ·)
  | _ => none

theorem length_flatMap_byteDigits (bytes : Bytes) :
    (bytes.flatMap byteDigits).length = 2 * bytes.length := by
  induction bytes with
  | nil => rfl
  | cons byte bytes ih =>
      simp only [List.flatMap_cons, List.length_append, List.length_cons, ih]
      simp only [byteDigits, List.length_cons, List.length_nil]
      omega

/-- Every character of a printed buffer is a base-16 digit. -/
theorem isSome_hexDigit_of_mem_byteDigits (bytes : Bytes) :
    ∀ c ∈ bytes.flatMap byteDigits, (hexDigit c).isSome := by
  intro c member
  obtain ⟨byte, _, digit⟩ := List.mem_flatMap.mp member
  have bound := byte.toNat_lt
  simp only [byteDigits, List.mem_cons, List.not_mem_nil, or_false] at digit
  rcases digit with rfl | rfl
  · rw [hexDigit_digitChar (by omega)]; rfl
  · rw [hexDigit_digitChar (by omega)]; rfl

/-- Every byte is printed with two digits. -/
theorem Bytes.hexDigits_toHex (bytes : Bytes) : HexDigits (2 * bytes.length) bytes.toHex := by
  rw [HexDigits, toHex, String.toList_ofList]
  exact ⟨length_flatMap_byteDigits bytes, isSome_hexDigit_of_mem_byteDigits bytes⟩

/-- A printed buffer decodes back. -/
theorem decodeHexDigits_byteDigits (bytes : Bytes) :
    decodeHexDigits (bytes.flatMap byteDigits) = bytes := by
  induction bytes with
  | nil => rfl
  | cons byte bytes ih =>
      have bound := byte.toNat_lt
      have high : hexDigit (Nat.digitChar (byte.toNat / 16)) = some (byte.toNat / 16) :=
        hexDigit_digitChar (by omega)
      have low : hexDigit (Nat.digitChar (byte.toNat % 16)) = some (byte.toNat % 16) :=
        hexDigit_digitChar (by omega)
      have halves : 16 * (byte.toNat / 16) + byte.toNat % 16 = byte.toNat := Nat.div_add_mod ..
      change decodeHexDigits (Nat.digitChar (byte.toNat / 16) :: Nat.digitChar (byte.toNat % 16) ::
        bytes.flatMap byteDigits) = byte :: bytes
      rw [decodeHexDigits]
      simp only [high, low, ih, halves, UInt8.ofNat_toNat]

@[simp] theorem Bytes.ofHex_toHex (bytes : Bytes) : Bytes.ofHex (Bytes.toHex bytes) = bytes := by
  rw [ofHex, toHex, String.toList_ofList, decodeHexDigits_byteDigits]

theorem Bytes.toHex_injective : Function.Injective Bytes.toHex := by
  intro first second equal
  rw [← Bytes.ofHex_toHex first, equal, Bytes.ofHex_toHex]

/-- The printed digits of a buffer are in lower case. -/
theorem Bytes.toLower_toHex (bytes : Bytes) : (Bytes.toHex bytes).toLower = Bytes.toHex bytes := by
  have printed : ∀ digit < 16, (Nat.digitChar digit).toLower = Nat.digitChar digit := by decide
  have lowered : (bytes.flatMap byteDigits).map Char.toLower = bytes.flatMap byteDigits := by
    induction bytes with
    | nil => rfl
    | cons byte bytes ih =>
        have bound := byte.toNat_lt
        rw [List.flatMap_cons, List.map_append, ih]
        simp only [byteDigits, List.map_cons, List.map_nil, printed _ (show byte.toNat / 16 < 16 by omega),
          printed _ (show byte.toNat % 16 < 16 by omega)]
  apply String.toList_injective
  show ((toHex bytes).map Char.toLower).toList = _
  rw [String.toList_map, toHex, String.toList_ofList, lowered]

/-- The bytes are the exact value of the text, two digits for each byte. -/
def Bytes.Denotes (bytes : Bytes) (text : String) : Prop :=
  HexDigits (2 * bytes.length) text ∧ hexNumber bytes.toHex = hexNumber text

/-- Whole pairs of base-16 digits lose nothing when they are decoded. -/
theorem hexPrefix_decodeHexDigits {count : ℕ} {text : List Char} (length : text.length = 2 * count)
    (digits : ∀ c ∈ text, (hexDigit c).isSome) :
    (decodeHexDigits text).length = count ∧
      hexPrefix ((decodeHexDigits text).flatMap byteDigits) = hexPrefix text := by
  induction count generalizing text with
  | zero =>
      obtain rfl := List.length_eq_zero_iff.mp length
      exact ⟨rfl, rfl⟩
  | succ count ih =>
      obtain ⟨high, low, rest, rfl⟩ : ∃ high low rest, text = high :: low :: rest := by
        match text, length with
        | high :: low :: rest, _ => exact ⟨high, low, rest, rfl⟩
      obtain ⟨upper, foundUpper⟩ := Option.isSome_iff_exists.mp (digits high (by simp))
      obtain ⟨lower, foundLower⟩ := Option.isSome_iff_exists.mp (digits low (by simp))
      have upperSmall := hexDigit_lt foundUpper
      have lowerSmall := hexDigit_lt foundLower
      have byte : (UInt8.ofNat (16 * upper + lower)).toNat = 16 * upper + lower := by
        rw [UInt8.toNat_ofNat']
        omega
      have pairs : rest.length = 2 * count := by
        simp only [List.length_cons] at length
        omega
      obtain ⟨size, whole⟩ := ih pairs fun c member =>
        digits c (List.mem_cons_of_mem _ (List.mem_cons_of_mem _ member))
      have first : hexDigit (Nat.digitChar ((16 * upper + lower) / 16)) = some upper := by
        rw [show (16 * upper + lower) / 16 = upper by omega]
        exact hexDigit_digitChar upperSmall
      have second : hexDigit (Nat.digitChar ((16 * upper + lower) % 16)) = some lower := by
        rw [show (16 * upper + lower) % 16 = lower by omega]
        exact hexDigit_digitChar lowerSmall
      simp only [decodeHexDigits, foundUpper, foundLower, List.length_cons, List.flatMap_cons, byteDigits,
        byte, List.cons_append, List.nil_append, hexPrefix, first, second, whole, size, and_self]

/-- The decoding of a text with an even number of digits is its exact value. -/
theorem Bytes.denotes_ofHex {count : ℕ} {text : String} (digits : HexDigits (2 * count) text) :
    (Bytes.ofHex text).length = count ∧ (Bytes.ofHex text).Denotes text := by
  obtain ⟨length, whole⟩ := hexPrefix_decodeHexDigits digits.1 digits.2
  refine ⟨length, ?_, ?_⟩
  · rw [ofHex, length]
    exact digits
  · rw [hexNumber, toHex, String.toList_ofList, ofHex, whole]
    rfl

theorem decodeHexDigits_append {count : ℕ} {first : List Char} (second : List Char)
    (length : first.length = 2 * count) (digits : ∀ c ∈ first, (hexDigit c).isSome) :
    decodeHexDigits (first ++ second) = decodeHexDigits first ++ decodeHexDigits second := by
  induction count generalizing first with
  | zero =>
      obtain rfl := List.length_eq_zero_iff.mp length
      rfl
  | succ count ih =>
      obtain ⟨high, low, rest, rfl⟩ : ∃ high low rest, first = high :: low :: rest := by
        match first, length with
        | high :: low :: rest, _ => exact ⟨high, low, rest, rfl⟩
      obtain ⟨upper, foundUpper⟩ := Option.isSome_iff_exists.mp (digits high (by simp))
      obtain ⟨lower, foundLower⟩ := Option.isSome_iff_exists.mp (digits low (by simp))
      have pairs : rest.length = 2 * count := by
        simp only [List.length_cons] at length
        omega
      have tail := ih pairs fun c member =>
        digits c (List.mem_cons_of_mem _ (List.mem_cons_of_mem _ member))
      simp only [List.cons_append, decodeHexDigits, foundUpper, foundLower, tail]

/-- Texts of whole bytes are decoded one after the other. -/
theorem Bytes.ofHex_append {count : ℕ} {first : String} (second : String)
    (digits : HexDigits (2 * count) first) :
    Bytes.ofHex (first ++ second) = Bytes.ofHex first ++ Bytes.ofHex second := by
  rw [ofHex, String.toList_append, decodeHexDigits_append second.toList digits.1 digits.2]
  rfl

/-- The swap is defined exactly on the multiples of four bytes. -/
theorem isSome_swap32_iff (bytes : Bytes) : (swap32 bytes).isSome ↔ 4 ∣ bytes.length := by
  induction bytes using swap32.induct with
  | case1 => simp [swap32]
  | case2 a b c d rest ih =>
      simp only [swap32, Option.isSome_map, ih, List.length_cons]
      omega
  | case3 bytes nonempty short =>
      match bytes, nonempty, short with
      | [_], _, _ => simp [swap32]
      | [_, _], _, _ => simp [swap32]
      | [_, _, _], _, _ => simp [swap32]
      | a :: b :: c :: d :: rest, _, short => exact absurd rfl (short a b c d rest)

theorem length_of_swap32 {bytes swapped : Bytes} (defined : swap32 bytes = some swapped) :
    swapped.length = bytes.length := by
  induction bytes using swap32.induct generalizing swapped with
  | case1 =>
      obtain rfl : [] = swapped := by simpa [swap32] using defined
      rfl
  | case2 a b c d rest ih =>
      rw [swap32, Option.map_eq_some_iff] at defined
      obtain ⟨tail, found, rfl⟩ := defined
      simp [ih found]
  | case3 bytes nonempty short =>
      rw [swap32] at defined
      · cases defined
      · exact nonempty
      · exact short

/-- The swap is its own inverse. -/
theorem swap32_swap32 {bytes swapped : Bytes} (defined : swap32 bytes = some swapped) :
    swap32 swapped = some bytes := by
  induction bytes using swap32.induct generalizing swapped with
  | case1 =>
      obtain rfl : [] = swapped := by simpa [swap32] using defined
      rfl
  | case2 a b c d rest ih =>
      rw [swap32, Option.map_eq_some_iff] at defined
      obtain ⟨tail, found, rfl⟩ := defined
      rw [List.cons_append, List.cons_append, List.cons_append, List.cons_append, swap32,
        List.nil_append, ih found]
      rfl
  | case3 bytes nonempty short =>
      rw [swap32] at defined
      · cases defined
      · exact nonempty
      · exact short

/-- The swap of a longer buffer swaps its last word at the end. -/
theorem swap32_append_word {bytes swapped : Bytes} (a b c d : UInt8)
    (defined : swap32 bytes = some swapped) :
    swap32 (bytes ++ [a, b, c, d]) = some (swapped ++ [d, c, b, a]) := by
  induction bytes using swap32.induct generalizing swapped with
  | case1 =>
      obtain rfl : [] = swapped := by simpa [swap32] using defined
      rfl
  | case2 a' b' c' d' rest ih =>
      rw [swap32, Option.map_eq_some_iff] at defined
      obtain ⟨tail, found, rfl⟩ := defined
      simp only [List.cons_append, List.nil_append, swap32, ih found, Option.map_some]
  | case3 bytes nonempty short =>
      rw [swap32] at defined
      · cases defined
      · exact nonempty
      · exact short

/-- The swap commutes with the reversal of the whole buffer. -/
theorem swap32_reverse {bytes swapped : Bytes} (defined : swap32 bytes = some swapped) :
    swap32 bytes.reverse = some swapped.reverse := by
  induction bytes using swap32.induct generalizing swapped with
  | case1 =>
      obtain rfl : [] = swapped := by simpa [swap32] using defined
      rfl
  | case2 a b c d rest ih =>
      rw [swap32, Option.map_eq_some_iff] at defined
      obtain ⟨tail, found, rfl⟩ := defined
      have last := swap32_append_word d c b a (ih found)
      simpa using last
  | case3 bytes nonempty short =>
      rw [swap32] at defined
      · cases defined
      · exact nonempty
      · exact short

end JavaScript
