import ComptoMiningPool.JavaScript.Buffer
import ComptoMiningPool.JavaScript.Value

/-
This file models the stratum messages: how a request decodes and which lines answer it.
-/

namespace ComptoMiningPool

open JavaScript

/-- This is the `hasValue` helper. -/
def hasValue (value : Value) : Bool :=
  match value with
  | none => false
  | some .null => false
  | some _ => true

inductive RequestMethod where
  | subscribe
  | configure
  | authorize
  | suggestDifficulty
  | submit
  deriving DecidableEq

def RequestMethod.text : RequestMethod → String
  | .subscribe => "mining.subscribe"
  | .configure => "mining.configure"
  | .authorize => "mining.authorize"
  | .suggestDifficulty => "mining.suggest_difficulty"
  | .submit => "mining.submit"

def RequestMethod.all : List RequestMethod :=
  [.subscribe, .configure, .authorize, .suggestDifficulty, .submit]

/-- The method of a request is one of the five texts or none of them. -/
def RequestMethod.ofValue (value : Value) : Option RequestMethod :=
  RequestMethod.all.find? fun method => value.isString && value.text == method.text

inductive StratumErrorCode where
  | otherUnknown
  | jobNotFound
  | duplicateShare
  | lowDifficultyShare
  | unauthorizedWorker
  | notSubscribed
  deriving DecidableEq

def StratumErrorCode.toNat : StratumErrorCode → ℕ
  | .otherUnknown => 20
  | .jobNotFound => 21
  | .duplicateShare => 22
  | .lowDifficultyShare => 23
  | .unauthorizedWorker => 24
  | .notSubscribed => 25

/-- The parameters of a `mining.notify` line. -/
structure MiningNotify where
  jobId : String
  prevHash : String
  coinbasePart1 : String
  coinbasePart2 : String
  merkleBranch : List String
  version : String
  bits : String
  timestamp : String
  clearJobs : Bool
  deriving DecidableEq

/-- A line that the pool writes. Error data keeps the rejected values before they become text. -/
inductive Line where
  | response (id : Json) (result : Json)
  | error (id : Json) (code : StratumErrorCode) (message : String) (data : List Value)
  | setDifficulty (difficulty : Number)
  | notify (params : MiningNotify)
  deriving DecidableEq

/-- Responses carry the id of a request. Notifications carry no id. -/
def Line.id? : Line → Option Json
  | .response id _ => some id
  | .error id _ _ _ => some id
  | .setDifficulty _ => none
  | .notify _ => none

/-- A validation error names the property that it rejects. -/
structure ValidationError where
  property : String
  value : Value

/-- A validated message is accepted, or it is rejected with its errors. -/
inductive Validated (M : Type) where
  | invalid (id : Json) (errors : List ValidationError)
  | valid (message : M)

/-- One decorated property with its value and the verdict of its decorators. -/
structure PropertyCheck where
  property : String
  value : Value
  passes : Bool

abbrev Fields := List (String × Json)

/-- A missing id keeps the default of the base class. -/
def messageId (fields : Fields) : Json := (fields.lookup "id").getD .null

/-- Keys that name a method of the instance are never copied from the request. -/
def skippedKeys : List String := "response" :: "getVersionRollingProps" :: inheritedKeys

/-- The validation rejects unknown properties first, then the own and the inherited properties. -/
def validationErrors (fields : Fields) (checks : List PropertyCheck) : List ValidationError :=
  let base : List PropertyCheck :=
    [⟨"id", some (messageId fields), hasValue (some (messageId fields))⟩,
      ⟨"method", fields.lookup "method", (RequestMethod.ofValue (fields.lookup "method")).isSome⟩]
  let known := (checks ++ base).map PropertyCheck.property
  let unknown := fields.filter fun entry => entry.1 ∉ known ∧ entry.1 ∉ skippedKeys
  unknown.map (fun entry => ⟨entry.1, some entry.2⟩) ++
    ((checks ++ base).filter fun check => !check.passes).map fun check => ⟨check.property, check.value⟩

/-- The message is built only when no property is rejected. -/
def validated {M : Type} (fields : Fields) (checks : List PropertyCheck) (message : M) : Validated M :=
  match validationErrors fields checks with
  | [] => .valid message
  | errors => .invalid (messageId fields) errors

structure SubscriptionMessage where
  id : Json
  userAgent : String

def refineUserAgent (userAgent : String) : String :=
  let head (separator : Char) (text : String) : String := (splitText separator text).headD ""
  let userAgent := head 'V' (head '/' (head ' ' userAgent))
  if includesText "bosminer" userAgent || includesText "bOS" userAgent then "Braiins OS"
  else if includesText "cpuminer" userAgent then "cpuminer"
  else userAgent

namespace SubscriptionMessage

def decode (fields : Fields) : Except Thrown (Validated SubscriptionMessage) := do
  let params : Value := fields.lookup "params"
  let name ← if hasValue params then params.index 0 else pure none
  let userAgent ← if hasValue name then refineUserAgent <$> name.asString else pure "unknown"
  pure <| validated fields
    [⟨"params", params, params.isArray⟩,
      ⟨"userAgent", some (.string userAgent), userAgent.length ≤ 128⟩]
    ⟨messageId fields, userAgent⟩

def response (message : SubscriptionMessage) (clientId : Option String) : Line :=
  let clientId : Json := (clientId.map Json.string).getD .null
  .response message.id
    (.array [.array [.array [.string "mining.notify", clientId]], clientId, .number 4])

end SubscriptionMessage

/-- A rolling mask never leaves the bits that the pool lets a miner roll. -/
structure RollingMask where
  word : BitVec 32
  contained : word &&& 0x1fffe000#32 = word

/-- The requested mask is cut down to the rolling bits. -/
def RollingMask.ofNumber (requested : Number) : RollingMask where
  word := requested.toInt32 &&& 0x1fffe000#32
  contained := by rw [BitVec.and_assoc, BitVec.and_self]

structure ConfigurationMessage where
  id : Json
  unknownExtensions : List Json
  versionRolling : Bool
  versionRollingMask : RollingMask
  versionRollingMinBitCount : Value

/-- The digits may follow the marker `0x` or `0h`. -/
def isHexadecimal (text : String) : Bool :=
  let digits := match text.toList with
    | '0' :: marker :: rest => if marker ∈ ['x', 'X', 'h', 'H'] then rest else text.toList
    | characters => characters
  !digits.isEmpty && digits.all fun c => (hexDigit c).isSome

namespace ConfigurationMessage

def isVersionRolling : Json → Bool
  | .string text => text == "version-rolling"
  | _ => false

/-- A null or missing parameter takes the default. -/
def orDefault (default : Json) (value : Value) : Value :=
  if hasValue value then value else some default

def decode (fields : Fields) : Except Thrown (Validated ConfigurationMessage) := do
  let params : Value := fields.lookup "params"
  let extensions ← (← params.index 0).asArray
  let versionRolling := extensions.any isVersionRolling
  let options ← params.index 1
  let mask : Value ← if versionRolling
    then orDefault (.string "ffffffff") <$> options.field "version-rolling.mask"
    else pure (some (.string "ffffffff"))
  let minBitCount : Value ← if versionRolling
    then orDefault (.number 0) <$> options.field "version-rolling.min-bit-count"
    else pure (some (.number 0))
  let rollingMask := RollingMask.ofNumber (parseHex mask.text)
  pure <| validated fields
    [⟨"params", params, params.isArrayOf 2 2⟩,
      ⟨"unknownExtensions", some (.array (extensions.filter (!isVersionRolling ·))), true⟩,
      ⟨"versionRolling", some (.bool versionRolling), true⟩,
      ⟨"versionRollingMask", some (.number (.ofInt32 rollingMask.word)),
        !versionRolling || (mask.isString && isHexadecimal mask.text)⟩,
      ⟨"versionRollingMinBitCount", minBitCount, minBitCount.isFiniteNumber⟩]
    ⟨messageId fields, extensions.filter (!isVersionRolling ·), versionRolling, rollingMask,
      minBitCount⟩

def response (message : ConfigurationMessage) : Line :=
  .response message.id <| .object <|
    if message.versionRolling then
      [("version-rolling", .bool true),
        ("version-rolling.mask", .string (hexText message.versionRollingMask.word.toNat))]
    else [("version-rolling", .bool false)]

end ConfigurationMessage

structure AuthorizationMessage where
  id : Json
  address : String
  worker : String
  password : Option String

namespace AuthorizationMessage

/-- The first parameter is `<address>.<userId>`. A missing user is the worker `worker`. -/
def decode (isPublicKey : String → Bool) (fields : Fields) :
    Except Thrown (Validated AuthorizationMessage) := do
  let params : Value := fields.lookup "params"
  let pieces := splitText '.' (← (← params.index 0).asString)
  let address := pieces.headD ""
  let worker := pieces[1]?.getD "worker"
  let password ← params.index 1
  pure <| validated fields
    [⟨"params", params, params.isArrayOf 2 2⟩,
      ⟨"address", some (.string address), isPublicKey address⟩,
      ⟨"worker", some (.string worker), worker.length ≤ 64⟩,
      ⟨"password", password, !hasValue password || (password.isString && password.text.length ≤ 64)⟩]
    ⟨messageId fields, address, worker, if hasValue password then some password.text else none⟩

def response (message : AuthorizationMessage) : Line := .response message.id (.bool true)

end AuthorizationMessage

structure MiningSubmitMessage where
  id : Json
  userId : String
  jobId : String
  extraNonce2 : String
  ntime : String
  nonce : String
  versionMask : Value

namespace MiningSubmitMessage

/-- The version bits default to the text `0`, so an accepted submit always has them. -/
def decode (fields : Fields) : Except Thrown (Validated MiningSubmitMessage) := do
  let params : Value := fields.lookup "params"
  let userId ← params.index 0
  let jobId ← params.index 1
  let extraNonce2 ← params.index 2
  let ntime ← params.index 3
  let nonce ← params.index 4
  let versionBits ← params.index 5
  let versionMask : Value := if hasValue versionBits then versionBits else some (.string "0")
  pure <| validated fields
    [⟨"params", params, params.isArrayOf 5 6⟩,
      ⟨"userId", userId, userId.isString⟩,
      ⟨"jobId", jobId, jobId.isString⟩,
      ⟨"extraNonce2", extraNonce2, extraNonce2.isString⟩,
      ⟨"ntime", ntime, ntime.isString⟩,
      ⟨"nonce", nonce, nonce.isString⟩,
      ⟨"versionMask", versionMask, versionMask.isString⟩]
    ⟨messageId fields, userId.text, jobId.text, extraNonce2.text, ntime.text, nonce.text, versionMask⟩

def response (message : MiningSubmitMessage) : Line := .response message.id (.bool true)

end MiningSubmitMessage

/-- A decoder transforms and validates the four kinds of requests. -/
structure Decoder where
  subscription : Fields → Except Thrown (Validated SubscriptionMessage)
  configuration : Fields → Except Thrown (Validated ConfigurationMessage)
  authorization : Fields → Except Thrown (Validated AuthorizationMessage)
  submit : Fields → Except Thrown (Validated MiningSubmitMessage)

/-- The decoder of the pool depends only on the texts that are public keys. -/
def stratumDecoder (isPublicKey : String → Bool) : Decoder where
  subscription := SubscriptionMessage.decode
  configuration := ConfigurationMessage.decode
  authorization := AuthorizationMessage.decode isPublicKey
  submit := MiningSubmitMessage.decode

/-- A rejected message keeps the id of its request. -/
theorem validated_cases {M : Type} (fields : Fields) (checks : List PropertyCheck) (message : M) :
    validated fields checks message = .valid message ∨
      ∃ errors, validated fields checks message = .invalid (messageId fields) errors := by
  unfold validated
  cases validationErrors fields checks with
  | nil => exact .inl rfl
  | cons error errors => exact .inr ⟨error :: errors, rfl⟩

/-- A decoded submission keeps the id of its request, and an accepted one has version bits. -/
theorem MiningSubmitMessage.decode_ok {fields : Fields} {decoded : Validated MiningSubmitMessage}
    (decodes : MiningSubmitMessage.decode fields = .ok decoded) :
    (∃ message, decoded = .valid message ∧ message.id = messageId fields ∧
        hasValue message.versionMask = true) ∨
      ∃ errors, decoded = .invalid (messageId fields) errors := by
  unfold MiningSubmitMessage.decode at decodes
  obtain ⟨userId, _, decodes⟩ := exists_ok_of_bind decodes
  obtain ⟨jobId, _, decodes⟩ := exists_ok_of_bind decodes
  obtain ⟨extraNonce2, _, decodes⟩ := exists_ok_of_bind decodes
  obtain ⟨ntime, _, decodes⟩ := exists_ok_of_bind decodes
  obtain ⟨nonce, _, decodes⟩ := exists_ok_of_bind decodes
  obtain ⟨versionBits, _, decodes⟩ := exists_ok_of_bind decodes
  obtain rfl := Except.ok.inj decodes
  rcases validated_cases fields _ _ with accepted | ⟨errors, rejected⟩
  · refine .inl ⟨_, accepted, rfl, ?_⟩
    show hasValue (if hasValue versionBits then versionBits else _) = true
    cases present : hasValue versionBits with
    | true => simpa using present
    | false => rfl
  · exact .inr ⟨errors, rejected⟩

theorem MiningSubmitMessage.decode_valid {fields : Fields} {message : MiningSubmitMessage}
    (decoded : MiningSubmitMessage.decode fields = .ok (.valid message)) :
    message.id = messageId fields ∧ hasValue message.versionMask = true := by
  rcases MiningSubmitMessage.decode_ok decoded with ⟨other, equal, kept⟩ | ⟨errors, equal⟩
  · obtain rfl := Validated.valid.inj equal
    exact kept
  · cases equal

end ComptoMiningPool
