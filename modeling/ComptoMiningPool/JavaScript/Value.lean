import ComptoMiningPool.JavaScript.Number

/-
This file models JSON values, thrown values, and objects that serve as dictionaries.
-/

namespace JavaScript

/-- A parsed JSON value. The fields of an object keep their order. -/
inductive Json where
  | null
  | bool (value : Bool)
  | number (value : Number)
  | string (text : String)
  | array (elements : List Json)
  | object (fields : List (String × Json))

mutual

/-- Two values are the same when their trees are. -/
def Json.same : Json → Json → Bool
  | .null, .null => true
  | .bool left, .bool right => left == right
  | .number left, .number right => left == right
  | .string left, .string right => left == right
  | .array left, .array right => Json.sameElements left right
  | .object left, .object right => Json.sameFields left right
  | _, _ => false

def Json.sameElements : List Json → List Json → Bool
  | [], [] => true
  | left :: lefts, right :: rights => left.same right && Json.sameElements lefts rights
  | _, _ => false

def Json.sameFields : List (String × Json) → List (String × Json) → Bool
  | [], [] => true
  | (name, left) :: lefts, (name', right) :: rights =>
      name == name' && left.same right && Json.sameFields lefts rights
  | _, _ => false

end

mutual

theorem Json.same_iff (left right : Json) : left.same right = true ↔ left = right := by
  cases left with
  | null => cases right <;> simp [Json.same]
  | bool value => cases right <;> simp [Json.same]
  | number value => cases right <;> simp [Json.same]
  | string text => cases right <;> simp [Json.same]
  | array elements =>
      cases right with
      | array others => simp [Json.same, Json.sameElements_iff elements others]
      | _ => simp [Json.same]
  | object fields =>
      cases right with
      | object others => simp [Json.same, Json.sameFields_iff fields others]
      | _ => simp [Json.same]

theorem Json.sameElements_iff (left right : List Json) : Json.sameElements left right = true ↔ left = right := by
  cases left with
  | nil => cases right <;> simp [Json.sameElements]
  | cons first rest =>
      cases right with
      | nil => simp [Json.sameElements]
      | cons other others => simp [Json.sameElements, Json.same_iff first other, Json.sameElements_iff rest others]

theorem Json.sameFields_iff (left right : List (String × Json)) : Json.sameFields left right = true ↔ left = right := by
  cases left with
  | nil => cases right <;> simp [Json.sameFields]
  | cons first rest =>
      obtain ⟨name, value⟩ := first
      cases right with
      | nil => simp [Json.sameFields]
      | cons other others =>
          obtain ⟨name', value'⟩ := other
          simp [Json.sameFields, Json.same_iff value value', Json.sameFields_iff rest others, and_assoc]

end

instance : DecidableEq Json := fun left right => decidable_of_iff _ (Json.same_iff left right)

/-- A value is a JSON value or `undefined`. -/
abbrev Value := Option Json

/-- The test of an `if` statement. -/
def Value.truthy : Value → Bool
  | none => false
  | some .null => false
  | some (.bool value) => value
  | some (.number value) => value ≠ .nan ∧ value ≠ 0
  | some (.string text) => text ≠ ""
  | some (.array _) => true
  | some (.object _) => true

/-- Anything can be thrown. An error carries a message, and some errors carry a nested code. -/
structure Thrown where
  isError : Bool
  message : Value
  errorCode : Option String

/-- This is `new Error(text)`. -/
def Thrown.error (text : String) : Thrown := ⟨true, some (.string text), none⟩

def Thrown.typeError : Thrown := .error "Cannot read properties of undefined"

/-- A fallible sequence that ends with a value has passed its first part. -/
theorem exists_ok_of_bind {α β : Type} {first : Except Thrown α} {rest : α → Except Thrown β} {value : β}
    (ran : (first >>= rest) = .ok value) : ∃ middle, first = .ok middle ∧ rest middle = .ok value := by
  cases first with
  | error thrown => cases ran
  | ok middle => exact ⟨middle, rfl, ran⟩

namespace Value

/-- This is `value[position]`. -/
def index (value : Value) (position : ℕ) : Except Thrown Value :=
  match value with
  | none => .error .typeError
  | some .null => .error .typeError
  | some (.array elements) => .ok elements[position]?
  | some (.object fields) => .ok (fields.lookup (toString position))
  | some (.string text) => .ok (text.toList[position]?.map fun c => .string (String.singleton c))
  | some _ => .ok none

/-- This is `value[name]` for a name that no built-in value defines. -/
def field (value : Value) (name : String) : Except Thrown Value :=
  match value with
  | none => .error .typeError
  | some .null => .error .typeError
  | some (.object fields) => .ok (fields.lookup name)
  | some _ => .ok none

/-- A string method exists on strings only. -/
def asString : Value → Except Thrown String
  | some (.string text) => .ok text
  | _ => .error .typeError

/-- An array method exists on arrays only. -/
def asArray : Value → Except Thrown (List Json)
  | some (.array elements) => .ok elements
  | _ => .error .typeError

/-- The text of a value that is known to be a string. -/
def text : Value → String
  | some (.string text) => text
  | _ => ""

def isString : Value → Bool
  | some (.string _) => true
  | _ => false

/-- A number check rejects not-a-number and the infinities. -/
def isFiniteNumber : Value → Bool
  | some (.number (.finite _)) => true
  | _ => false

/-- An array check with both bounds on the length. -/
def isArrayOf (least most : ℕ) : Value → Bool
  | some (.array elements) => least ≤ elements.length ∧ elements.length ≤ most
  | _ => false

def isArray : Value → Bool
  | some (.array _) => true
  | _ => false

end Value

/-- This is `text.split(separator)`. -/
def splitText (separator : Char) (text : String) : List String :=
  (text.toList.splitOn separator).map String.ofList

/-- The first piece of a text is no longer than the text. -/
theorem length_head_splitText (separator : Char) (text : String) :
    ((splitText separator text).headD "").length ≤ text.length := by
  have pieces : ∀ characters : List Char,
      ((characters.splitOn separator).headD []).length ≤ characters.length := by
    intro characters
    induction characters with
    | nil => exact Nat.le_refl 0
    | cons c characters ih =>
        obtain ⟨piece, rest, split⟩ :=
          List.exists_cons_of_ne_nil (List.splitOn_ne_nil separator characters)
        rw [split, List.headD_cons] at ih
        rw [List.splitOn_cons_eq_if_modifyHead, split]
        split
        · exact Nat.zero_le _
        · exact Nat.succ_le_succ ih
  obtain ⟨piece, rest, split⟩ := List.exists_cons_of_ne_nil (List.splitOn_ne_nil separator text.toList)
  have short := pieces text.toList
  rw [split] at short
  rw [splitText, split, List.map_cons, List.headD_cons, String.length_ofList]
  exact short

/-- This is `text.includes(part)`. -/
def includesText (part text : String) : Bool := part.toList <:+: text.toList

/-- The key that a value becomes in `dictionary[value]`. The values without a key here become texts with a
point, a comma, or a bracket, or texts that name a constant of numbers, which no dictionary contains. -/
def Json.propertyKey : Json → Option String
  | .null => some "null"
  | .bool value => some (toString value)
  | .number (.finite value) => if value.den = 1 then some (toString value.num) else none
  | .string text => some text
  | .array [.null] => some ""
  | .array [element] => element.propertyKey
  | _ => none

/-- The key of a counter is its decimal text. -/
@[simp] theorem Json.propertyKey_ofNat (n : ℕ) : (Json.number (.ofNat n)).propertyKey = some (toString n) := by
  rw [Number.ofNat, Json.propertyKey, Rat.den_natCast, Rat.num_natCast]
  rfl

theorem toString_injective {m n : ℕ} (same : toString m = toString n) : m = n := by
  rw [Nat.toString_eq_ofList_toDigits, Nat.toString_eq_ofList_toDigits] at same
  rw [← @Nat.ofDigitChars_ten_toDigits m, String.ofList_injective same, Nat.ofDigitChars_ten_toDigits]

/-- The key of a counter is not the key of a null. -/
theorem toString_ne_null (n : ℕ) : toString n ≠ "null" := by
  intro same
  have text : Nat.toDigits 10 n = ['n', 'u', 'l', 'l'] := by
    have characters := congrArg String.toList same
    rwa [Nat.toString_eq_ofList_toDigits, String.toList_ofList] at characters
  have digit : ('n' : Char).isDigit = true := by
    have member : 'n' ∈ Nat.toDigits 10 n := text ▸ List.mem_cons_self
    exact Nat.isDigit_of_mem_toDigits (by decide) (by decide) member
  cases digit

/-- The keys that every plain object inherits. -/
def inheritedKeys : List String :=
  ["constructor", "__proto__", "toString", "toLocaleString", "valueOf", "hasOwnProperty",
    "isPrototypeOf", "propertyIsEnumerable", "__defineGetter__", "__defineSetter__",
    "__lookupGetter__", "__lookupSetter__"]

/-- A read of a plain object finds an own entry or an inherited member. -/
inductive Entry (α : Type) where
  | own (value : α)
  | inherited

/-- The own entries of a plain object that serves as a dictionary. -/
abbrev Dictionary (α : Type) := String → Option α

namespace Dictionary

variable {α : Type}

def empty : Dictionary α := fun _ => none

/-- This is `dictionary[key] = value`. -/
def insert (dictionary : Dictionary α) (key : String) (value : α) : Dictionary α :=
  fun name => if name = key then some value else dictionary name

/-- This is `delete dictionary[key]`. -/
def erase (dictionary : Dictionary α) (key : String) : Dictionary α :=
  fun name => if name = key then none else dictionary name

/-- This is `dictionary[key]`. -/
def read (dictionary : Dictionary α) (key : String) : Option (Entry α) :=
  match dictionary key with
  | some value => some (.own value)
  | none => if key ∈ inheritedKeys then some .inherited else none

@[simp] theorem empty_apply (key : String) : (empty : Dictionary α) key = none := rfl

@[simp] theorem insert_self (dictionary : Dictionary α) (key : String) (value : α) :
    dictionary.insert key value key = some value := by
  simp [insert]

theorem insert_of_ne (dictionary : Dictionary α) {key name : String} (value : α)
    (different : name ≠ key) : dictionary.insert key value name = dictionary name := by
  simp [insert, different]

theorem insert_eq_some {dictionary : Dictionary α} {key name : String} {value found : α} :
    dictionary.insert key value name = some found ↔
      name = key ∧ value = found ∨ name ≠ key ∧ dictionary name = some found := by
  by_cases same : name = key
  · simp [insert, same]
  · simp [insert, same]

theorem erase_eq_some {dictionary : Dictionary α} {key name : String} {found : α} :
    dictionary.erase key name = some found ↔ name ≠ key ∧ dictionary name = some found := by
  by_cases same : name = key
  · simp [erase, same]
  · simp [erase, same]

/-- An own entry is found exactly under its key. -/
theorem read_eq_own {dictionary : Dictionary α} {key : String} {value : α} :
    dictionary.read key = some (.own value) ↔ dictionary key = some value := by
  unfold read
  cases found : dictionary key with
  | some value' => simp
  | none => simp

end Dictionary

end JavaScript
