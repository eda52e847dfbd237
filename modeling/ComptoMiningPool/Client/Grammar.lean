import ComptoMiningPool.Client.VersionGate

/-
This file states the request grammar of the protocol. It proves which requests of the grammar are
accepted with their documented fields.
-/

namespace ComptoMiningPool

open JavaScript Async

/-- The options of a configure request. The two options of version rolling are null or left out, or
they have their documented types. -/
structure ConfigureOptions where
  fields : Fields
  mask : Option String
  minBitCount : Option ℚ
  maskRead : hasValue (fields.lookup "version-rolling.mask") = mask.isSome ∧
    ∀ text, mask = some text → fields.lookup "version-rolling.mask" = some (.string text)
  minBitCountRead : hasValue (fields.lookup "version-rolling.min-bit-count") = minBitCount.isSome ∧
    ∀ count, minBitCount = some count →
      fields.lookup "version-rolling.min-bit-count" = some (.number (.finite count))

/-- The requests of the grammar with their documented parameters. An optional parameter may be null. The
password and the version bits may also be left out. -/
inductive StratumRequest where
  | subscribe (name : String) (sessionId : Option String)
  | configure (extensions : List String) (options : ConfigureOptions)
  | authorize (address userId : String) (password : Option (Option String))
  | submit (userId jobId extraNonce2 nTime nonce : String) (versionBits : Option (Option String))

def nullable (text : Option String) : Json := (text.map Json.string).getD .null

namespace StratumRequest

def method : StratumRequest → RequestMethod
  | subscribe _ _ => .subscribe
  | configure _ _ => .configure
  | authorize _ _ _ => .authorize
  | submit _ _ _ _ _ _ => .submit

def params : StratumRequest → List Json
  | subscribe name sessionId => [.string name, nullable sessionId]
  | configure extensions options => [.array (extensions.map Json.string), .object options.fields]
  | authorize address userId password =>
      .string (address ++ "." ++ userId) :: (password.map nullable).toList
  | submit userId jobId extraNonce2 nTime nonce versionBits =>
      [.string userId, .string jobId, .string extraNonce2, .string nTime, .string nonce] ++
        (versionBits.map nullable).toList

/-- Names keep to their length limits and contain no further dot, the key constructor accepts the
address, and a mask has up to eight base-16 digits. -/
def WellFormed (isPublicKey : String → Bool) : StratumRequest → Prop
  | subscribe name _ => name.length ≤ 128
  | configure _ options => ∀ mask, options.mask = some mask →
      ∃ digits, 0 < digits ∧ digits ≤ 8 ∧ HexDigits digits mask
  | authorize address userId password => isPublicKey address = true ∧ '.' ∉ address.toList ∧
      '.' ∉ userId.toList ∧ userId.length ≤ 64 ∧ ∀ text, password = some (some text) → text.length ≤ 64
  | submit _ _ _ _ _ _ => True

/-- An authorize request has its password parameter, which may be null. -/
def GivesPassword : StratumRequest → Prop
  | authorize _ _ password => password.isSome
  | _ => True

end StratumRequest

/-- The fields of a request are its id, its method, and its parameters in any order. -/
structure Requests (fields : Fields) (id : Option ℤ) (request : StratumRequest) : Prop where
  id : fields.lookup "id" = some ((id.map fun value => Json.number (.finite value)).getD .null)
  method : fields.lookup "method" = some (.string request.method.text)
  params : fields.lookup "params" = some (.array request.params)
  known : ∀ entry ∈ fields, entry.1 ∈ ["id", "method", "params"]

/-- The message passes its validation from every state of the connection. -/
def Accepts {M : Type} (environment : ClientEnvironment) (validate : ClientProgram (Validated M))
    (message : M) : Prop :=
  ∀ state history, ((validateMessage validate).run environment state history).result = .ok (.ok message)

/-- The request is accepted with its documented fields. -/
def YieldsFields (environment : ClientEnvironment) (fields : Fields) : StratumRequest → Prop
  | .subscribe name _ => ∃ message, Accepts environment (validateSubscription fields) message ∧
      message.id = messageId fields ∧ message.userAgent = refineUserAgent name
  | .configure extensions options =>
      ∃ message, Accepts environment (validateConfiguration fields) message ∧
        message.id = messageId fields ∧
        message.versionRolling = decide ("version-rolling" ∈ extensions) ∧
        message.unknownExtensions =
          (extensions.filter (· ≠ "version-rolling")).map Json.string ∧
        (message.versionRolling = true → message.versionRollingMask.word =
          BitVec.ofNat 32 (hexNumber (options.mask.getD "ffffffff")) &&& 0x1fffe000#32 ∧
          message.versionRollingMinBitCount = some (.number (.finite (options.minBitCount.getD 0))))
  | .authorize address userId password =>
      ∃ message, Accepts environment (validateAuthorization fields) message ∧
        message.id = messageId fields ∧ message.address = address ∧ message.worker = userId ∧
        message.password = password.join
  | .submit userId jobId extraNonce2 nTime nonce versionBits =>
      ∃ message, Accepts environment (validateSubmit fields) message ∧
        message.id = messageId fields ∧ message.userId = userId ∧ message.jobId = jobId ∧
        message.extraNonce2 = extraNonce2 ∧ message.ntime = nTime ∧ message.nonce = nonce ∧
        message.versionMask = some (.string (versionBits.join.getD "0"))

section Validation

variable {M : Type} {fields : Fields} {checks : List PropertyCheck} {message accepted : M} {id : Option ℤ}
  {request : StratumRequest}

theorem validated_valid_iff : validated fields checks message = .valid accepted ↔
    validationErrors fields checks = [] ∧ message = accepted := by
  unfold validated
  cases validationErrors fields checks with
  | nil => simp
  | cons error errors => simp

/-- Each check of an accepted request passes. -/
theorem passes_of_accepted (accepted : validationErrors fields checks = []) {check : PropertyCheck}
    (member : check ∈ checks) : check.passes = true := by
  by_contra fails
  have rejected := (List.append_eq_nil_iff.mp accepted).2
  rw [List.map_eq_nil_iff] at rejected
  have kept := List.filter_eq_nil_iff.mp rejected check (List.mem_append_left _ member)
  exact kept (by simpa using fails)

/-- A validation without suspended state accepts exactly the message that its decoder accepts. -/
theorem accepts_iff {environment : ClientEnvironment} {validate : ClientProgram (Validated M)}
    {decoded : Except Thrown (Validated M)}
    (runs : ∀ state history, (validate.run environment state history).result = decoded) :
    Accepts environment validate accepted ↔ decoded = .ok (.valid accepted) := by
  have ran : ∀ state history, ((validateMessage validate).run environment state history).result =
      .ok (.ok accepted) ↔ decoded = .ok (.valid accepted) := by
    intro state history
    unfold validateMessage
    rw [Program.bind_eq, Program.run_bind, runs]
    cases decoded with
    | error thrown => simp
    | ok verdict =>
        cases verdict with
        | valid message => simp [Program.run]
        | invalid id errors =>
            simp only [Program.bind_eq, Program.run_bind]
            cases (Program.run environment (Program.joined ClientCall.turn _) _ _).result with
            | error thrown => simp
            | ok written => simp [Program.run]
  constructor
  · intro accepts
    exact (ran {} []).mp (accepts {} [])
  · intro equal state history
    exact (ran state history).mpr equal

theorem messageId_of_requests (requests : Requests fields id request) :
    messageId fields = (id.map fun value => Json.number (.finite value)).getD .null := by
  rw [messageId, requests.id]
  rfl

theorem RequestMethod.ofValue_text (method : RequestMethod) :
    RequestMethod.ofValue (some (.string method.text)) = some method := by
  cases method <;> decide

/-- A request of the grammar has no unknown property, so its errors are failing checks and a null id. -/
theorem validationErrors_eq_nil_iff (requests : Requests fields id request)
    (params : "params" ∈ checks.map PropertyCheck.property) :
    validationErrors fields checks = [] ↔ id ≠ none ∧ ∀ check ∈ checks, check.passes = true := by
  have known : ∀ entry ∈ fields, entry.1 ∈ (checks.map PropertyCheck.property) ++ ["id", "method"] := by
    intro entry member
    have keys := requests.known entry member
    simp only [List.mem_cons, List.not_mem_nil, or_false] at keys
    rcases keys with key | key | key
    · simp [key]
    · simp [key]
    · rw [key]
      exact List.mem_append_left _ params
  have method : (RequestMethod.ofValue (fields.lookup "method")).isSome = true := by
    rw [requests.method, RequestMethod.ofValue_text]
    rfl
  have identified : hasValue (some (messageId fields)) = true ↔ id ≠ none := by
    rw [messageId_of_requests requests]
    cases id <;> simp [hasValue]
  unfold validationErrors
  rw [List.append_eq_nil_iff, List.map_eq_nil_iff, List.map_eq_nil_iff, List.filter_eq_nil_iff,
    List.filter_eq_nil_iff]
  constructor
  · rintro ⟨_, passes⟩
    refine ⟨identified.mp ?_, ?_⟩
    · simpa using passes ⟨"id", some (messageId fields), hasValue (some (messageId fields))⟩ (by simp)
    · intro check member
      simpa using passes check (List.mem_append_left _ member)
  · rintro ⟨given, passes⟩
    refine ⟨?_, ?_⟩
    · intro entry member
      have listed := known entry member
      simp only [List.map_append, List.map_cons, List.map_nil]
      simp [listed]
    · intro check member
      rcases List.mem_append.mp member with member | member
      · simp [passes check member]
      · simp only [List.mem_cons, List.not_mem_nil, or_false] at member
        rcases member with rfl | rfl
        · simp [identified.mpr given]
        · simp [method]

/-- A request of the grammar is accepted with its message exactly when its checks pass and its id is
not null. -/
theorem exists_valid_iff (requests : Requests fields id request)
    (params : "params" ∈ checks.map PropertyCheck.property) {property : M → Prop} (holds : property message) :
    (∃ accepted, validated fields checks message = .valid accepted ∧ property accepted) ↔
      id ≠ none ∧ ∀ check ∈ checks, check.passes = true := by
  simp only [validated_valid_iff, validationErrors_eq_nil_iff requests params]
  constructor
  · rintro ⟨accepted, ⟨passes, _⟩, _⟩
    exact passes
  · intro passes
    exact ⟨message, ⟨passes, rfl⟩, holds⟩

end Validation

section Decoding

variable {decoder : Decoder} {environment : ClientEnvironment}

/-- A request is accepted with the message that the decoder of its kind accepts. -/
theorem accepts_subscription_iff (decodes : Decodes decoder environment) {fields : Fields}
    {message : SubscriptionMessage} : Accepts environment (validateSubscription fields) message ↔
      decoder.subscription fields = .ok (.valid message) := by
  apply accepts_iff
  intro state history
  rw [validateSubscription, Program.bind_eq, Program.run_bind]
  simp only [Program.awaiting, Program.run, Program.run_ofExcept]
  exact decodes.subscription _ fields

theorem accepts_configuration_iff (decodes : Decodes decoder environment) {fields : Fields}
    {message : ConfigurationMessage} : Accepts environment (validateConfiguration fields) message ↔
      decoder.configuration fields = .ok (.valid message) := by
  apply accepts_iff
  intro state history
  rw [validateConfiguration, Program.bind_eq, Program.run_bind]
  simp only [Program.awaiting, Program.run, Program.run_ofExcept]
  exact decodes.configuration _ fields

theorem accepts_authorization_iff (decodes : Decodes decoder environment) {fields : Fields}
    {message : AuthorizationMessage} : Accepts environment (validateAuthorization fields) message ↔
      decoder.authorization fields = .ok (.valid message) := by
  apply accepts_iff
  intro state history
  rw [validateAuthorization, Program.bind_eq, Program.run_bind]
  simp only [Program.awaiting, Program.run, Program.run_ofExcept]
  exact decodes.authorization _ fields

theorem accepts_submit_iff (decodes : Decodes decoder environment) {fields : Fields}
    {message : MiningSubmitMessage} : Accepts environment (validateSubmit fields) message ↔
      decoder.submit fields = .ok (.valid message) := by
  apply accepts_iff
  intro state history
  rw [validateSubmit, Program.bind_eq, Program.run_bind]
  simp only [Program.awaiting, Program.run, Program.run_ofExcept]
  exact decodes.submit _ fields

end Decoding

section Requests

variable {isPublicKey : String → Bool} {environment : ClientEnvironment} {fields : Fields} {id : Option ℤ}

theorem length_refineUserAgent (name : String) (short : name.length ≤ 128) :
    (refineUserAgent name).length ≤ 128 := by
  have head := length_head_splitText
  unfold refineUserAgent
  dsimp only
  split
  · decide
  · split
    · decide
    · exact (head _ _).trans ((head _ _).trans ((head _ _).trans short))

/-- A subscribe request is accepted exactly when its id is not null. -/
theorem subscribe_yields_iff {name : String} {sessionId : Option String}
    (decodes : Decodes (stratumDecoder isPublicKey) environment)
    (requests : Requests fields id (.subscribe name sessionId))
    (wellFormed : (StratumRequest.subscribe name sessionId).WellFormed isPublicKey) :
    YieldsFields environment fields (.subscribe name sessionId) ↔ id ≠ none := by
  have params : fields.lookup "params" = some (.array [.string name, nullable sessionId]) :=
    requests.params
  have decoded : SubscriptionMessage.decode fields = .ok (validated fields
      [⟨"params", some (.array [.string name, nullable sessionId]), true⟩,
        ⟨"userAgent", some (.string (refineUserAgent name)), (refineUserAgent name).length ≤ 128⟩]
      ⟨messageId fields, refineUserAgent name⟩) := by
    unfold SubscriptionMessage.decode
    rw [params]
    rfl
  have short := length_refineUserAgent name wellFormed
  rw [YieldsFields]
  simp only [accepts_subscription_iff decodes, stratumDecoder, decoded, Except.ok.injEq]
  rw [exists_valid_iff requests]
  · simp [short]
  · simp
  · exact ⟨rfl, by with_reducible rfl⟩

theorem splitText_dot {address userId : String} (first : '.' ∉ address.toList)
    (second : '.' ∉ userId.toList) :
    splitText '.' (address ++ "." ++ userId) = [address, userId] := by
  have dotted : (address ++ "." ++ userId).toList = address.toList ++ '.' :: userId.toList := by
    simp
  rw [splitText, dotted, List.splitOn_append_cons_self_of_not_mem first,
    List.splitOn_eq_singleton second]
  simp

/-- An authorize request is accepted exactly when its id is not null and its password is given. -/
theorem authorize_yields_iff {address userId : String} {password : Option (Option String)}
    (decodes : Decodes (stratumDecoder isPublicKey) environment)
    (requests : Requests fields id (.authorize address userId password))
    (wellFormed : (StratumRequest.authorize address userId password).WellFormed isPublicKey) :
    YieldsFields environment fields (.authorize address userId password) ↔
      id ≠ none ∧ password.isSome := by
  obtain ⟨key, first, second, short, longest⟩ := wellFormed
  have params : fields.lookup "params" = some (.array
      (.string (address ++ "." ++ userId) :: (password.map nullable).toList)) := requests.params
  have decoded : AuthorizationMessage.decode isPublicKey fields = .ok (validated fields
      [⟨"params", fields.lookup "params", password.isSome⟩,
        ⟨"address", some (.string address), true⟩, ⟨"worker", some (.string userId), true⟩,
        ⟨"password", password.map nullable, true⟩]
      ⟨messageId fields, address, userId, password.join⟩) := by
    have name : Value.index (some (.array (.string (address ++ "." ++ userId) ::
        (password.map nullable).toList))) 0 = .ok (some (.string (address ++ "." ++ userId))) := rfl
    have size : Value.isArrayOf 2 2 (some (.array (.string (address ++ "." ++ userId) ::
        (password.map nullable).toList))) = password.isSome := by
      cases password <;> rfl
    have given : Value.index (some (.array (.string (address ++ "." ++ userId) ::
        (password.map nullable).toList))) 1 = .ok (password.map nullable) := by
      cases password <;> rfl
    have kept : (if hasValue (password.map nullable) = true then some (Value.text (password.map nullable))
        else none) = password.join := by
      cases password with
      | none => rfl
      | some text => cases text <;> rfl
    have limited : (!hasValue (password.map nullable) || (Value.isString (password.map nullable) &&
        decide ((Value.text (password.map nullable)).length ≤ 64))) = true := by
      cases password with
      | none => rfl
      | some text =>
          cases text with
          | none => rfl
          | some text => exact decide_eq_true (longest text rfl)
    unfold AuthorizationMessage.decode
    rw [params]
    have text : Value.asString (some (.string (address ++ "." ++ userId))) =
        .ok (address ++ "." ++ userId) := rfl
    have pieces := splitText_dot first second
    simp only [name, given, text, pieces, size, kept, limited, bind, Except.bind, pure, Except.pure]
    simp [key, short]
  rw [YieldsFields]
  simp only [accepts_authorization_iff decodes, stratumDecoder, decoded, Except.ok.injEq]
  rw [exists_valid_iff requests]
  · simp
  · simp
  · refine ⟨?_, ?_, ?_, ?_⟩ <;> rfl

/-- A submit request is accepted exactly when its id is not null. -/
theorem submit_yields_iff {userId jobId extraNonce2 nTime nonce : String}
    {versionBits : Option (Option String)}
    (decodes : Decodes (stratumDecoder isPublicKey) environment)
    (requests : Requests fields id (.submit userId jobId extraNonce2 nTime nonce versionBits)) :
    YieldsFields environment fields (.submit userId jobId extraNonce2 nTime nonce versionBits) ↔
      id ≠ none := by
  have params : fields.lookup "params" = some (.array ([.string userId, .string jobId,
      .string extraNonce2, .string nTime, .string nonce] ++ (versionBits.map nullable).toList)) :=
    requests.params
  have decoded : MiningSubmitMessage.decode fields = .ok (validated fields
      [⟨"params", fields.lookup "params", true⟩, ⟨"userId", some (.string userId), true⟩,
        ⟨"jobId", some (.string jobId), true⟩, ⟨"extraNonce2", some (.string extraNonce2), true⟩,
        ⟨"ntime", some (.string nTime), true⟩, ⟨"nonce", some (.string nonce), true⟩,
        ⟨"versionMask", some (.string (versionBits.join.getD "0")), true⟩]
      ⟨messageId fields, userId, jobId, extraNonce2, nTime, nonce,
        some (.string (versionBits.join.getD "0"))⟩) := by
    unfold MiningSubmitMessage.decode
    rw [params]
    cases versionBits with
    | none => rfl
    | some given =>
        cases given with
        | none => rfl
        | some text => rfl
  rw [YieldsFields]
  simp only [accepts_submit_iff decodes, stratumDecoder, decoded, Except.ok.injEq]
  rw [exists_valid_iff requests]
  · simp
  · simp
  · refine ⟨?_, ?_, ?_, ?_, ?_, ?_, ?_⟩ <;> rfl

/-- A text of base-16 digits has no marker, so all its characters are checked and pass. -/
theorem isHexadecimal_of_hexDigits {count : ℕ} {text : String} (digits : HexDigits count text)
    (nonempty : 0 < count) : isHexadecimal text = true := by
  obtain ⟨length, all⟩ := digits
  have filled : text.toList ≠ [] := by
    intro empty
    rw [empty] at length
    exact nonempty.ne length
  unfold isHexadecimal
  split
  · next marker rest characters =>
      have unmarked : marker ∉ ['x', 'X', 'h', 'H'] := by
        intro member
        have digit := all marker (by simp [characters])
        simp only [List.mem_cons, List.not_mem_nil, or_false] at member
        rcases member with rfl | rfl | rfl | rfl <;> exact absurd digit (by decide)
      rw [if_neg unmarked]
      simpa [filled, List.all_eq_true] using all
  · simpa [filled, List.all_eq_true] using all

theorem any_isVersionRolling (extensions : List String) :
    (extensions.map Json.string).any ConfigurationMessage.isVersionRolling =
      decide ("version-rolling" ∈ extensions) := by
  rw [Bool.eq_iff_iff]
  simp [ConfigurationMessage.isVersionRolling]

theorem filter_isVersionRolling (extensions : List String) :
    (extensions.map Json.string).filter (fun extension => !ConfigurationMessage.isVersionRolling extension) =
      (extensions.filter (· ≠ "version-rolling")).map Json.string := by
  rw [List.filter_map]
  congr 1
  apply List.filter_congr
  intro extension _
  simp [ConfigurationMessage.isVersionRolling, Bool.beq_eq_decide_eq]

theorem ConfigureOptions.orDefault_mask (options : ConfigureOptions) :
    ConfigurationMessage.orDefault (.string "ffffffff") (options.fields.lookup "version-rolling.mask") =
      some (.string (options.mask.getD "ffffffff")) := by
  obtain ⟨given, typed⟩ := options.maskRead
  unfold ConfigurationMessage.orDefault
  rw [given]
  cases present : options.mask with
  | none => rfl
  | some text => exact typed text present

theorem ConfigureOptions.orDefault_minBitCount (options : ConfigureOptions) :
    ConfigurationMessage.orDefault (.number 0) (options.fields.lookup "version-rolling.min-bit-count") =
      some (.number (.finite (options.minBitCount.getD 0))) := by
  obtain ⟨given, typed⟩ := options.minBitCountRead
  unfold ConfigurationMessage.orDefault
  rw [given]
  cases present : options.minBitCount with
  | none => rfl
  | some count => exact typed count present

/-- A mask of the grammar has up to eight digits, and so has the default. -/
theorem hexDigits_mask {extensions : List String} {options : ConfigureOptions}
    (wellFormed : (StratumRequest.configure extensions options).WellFormed isPublicKey) :
    ∃ digits, 0 < digits ∧ digits ≤ 8 ∧ HexDigits digits (options.mask.getD "ffffffff") := by
  cases given : options.mask with
  | none => exact ⟨8, by omega, by omega, by decide⟩
  | some mask => exact wellFormed mask given

/-- A configure request is accepted exactly when its id is not null. -/
theorem configure_yields_iff {extensions : List String} {options : ConfigureOptions}
    (decodes : Decodes (stratumDecoder isPublicKey) environment)
    (requests : Requests fields id (.configure extensions options))
    (wellFormed : (StratumRequest.configure extensions options).WellFormed isPublicKey) :
    YieldsFields environment fields (.configure extensions options) ↔ id ≠ none := by
  obtain ⟨digits, nonempty, short, hexadecimal⟩ := hexDigits_mask wellFormed
  have params : fields.lookup "params" =
      some (.array [.array (extensions.map Json.string), .object options.fields]) := requests.params
  obtain ⟨checks, message, decoded, passes, read⟩ : ∃ checks message,
      ConfigurationMessage.decode fields = .ok (validated fields checks message) ∧
        ("params" ∈ checks.map PropertyCheck.property ∧ ∀ check ∈ checks, check.passes = true) ∧
        message.id = messageId fields ∧
        message.versionRolling = decide ("version-rolling" ∈ extensions) ∧
        message.unknownExtensions =
          (extensions.filter (· ≠ "version-rolling")).map Json.string ∧
        (message.versionRolling = true → message.versionRollingMask.word =
          BitVec.ofNat 32 (hexNumber (options.mask.getD "ffffffff")) &&& 0x1fffe000#32 ∧
          message.versionRollingMinBitCount = some (.number (.finite (options.minBitCount.getD 0)))) := by
    have list : Value.index (some (.array [.array (extensions.map Json.string),
        .object options.fields])) 0 = .ok (some (.array (extensions.map Json.string))) := rfl
    have given : Value.index (some (.array [.array (extensions.map Json.string),
        .object options.fields])) 1 = .ok (some (.object options.fields)) := rfl
    have elements : Value.asArray (some (.array (extensions.map Json.string))) =
        .ok (extensions.map Json.string) := rfl
    have mask : ConfigurationMessage.orDefault (.string "ffffffff") <$>
        Value.field (some (.object options.fields)) "version-rolling.mask" =
          (.ok (some (.string (options.mask.getD "ffffffff"))) : Except Thrown Value) :=
      congrArg Except.ok options.orDefault_mask
    have count : ConfigurationMessage.orDefault (.number 0) <$>
        Value.field (some (.object options.fields)) "version-rolling.min-bit-count" =
          (.ok (some (.number (.finite (options.minBitCount.getD 0)))) : Except Thrown Value) :=
      congrArg Except.ok options.orDefault_minBitCount
    have word := toInt32_parseHex hexadecimal (by omega)
    have isHex := isHexadecimal_of_hexDigits hexadecimal nonempty
    unfold ConfigurationMessage.decode
    rw [params]
    by_cases rolling : "version-rolling" ∈ extensions
    · simp only [list, given, elements, any_isVersionRolling, filter_isVersionRolling, rolling,
        decide_true, if_true, mask, count, bind, Except.bind, pure, Except.pure]
      refine ⟨_, _, rfl, ⟨by simp, ?_⟩, rfl, rfl, rfl, fun _ => ⟨?_, rfl⟩⟩
      · simp [Value.isArrayOf, Value.isString, Value.text, isHex, Value.isFiniteNumber]
      · change (parseHex (options.mask.getD "ffffffff")).toInt32 &&& _ = _
        rw [word]
    · simp only [list, given, elements, any_isVersionRolling, filter_isVersionRolling, rolling,
        decide_false, Bool.false_eq_true, if_false, bind, Except.bind, pure, Except.pure]
      refine ⟨_, _, rfl, ⟨by simp, ?_⟩, rfl, rfl, rfl, fun enabled => nomatch enabled⟩
      have finite : Value.isFiniteNumber (some (.number 0)) = true := rfl
      simp [Value.isArrayOf, finite]
  rw [YieldsFields]
  simp only [accepts_configuration_iff decodes, stratumDecoder, decoded, Except.ok.injEq]
  rw [exists_valid_iff requests passes.1]
  · exact and_iff_left passes.2
  · exact read

end Requests

/-- The fields of a request in the order of the documentation. -/
def StratumRequest.fields (id : Option ℤ) (request : StratumRequest) : Fields :=
  [("id", (id.map fun value => Json.number (.finite value)).getD .null),
    ("method", .string request.method.text), ("params", .array request.params)]

theorem StratumRequest.requests_fields (id : Option ℤ) (request : StratumRequest) :
    Requests (request.fields id) id request := by
  refine ⟨rfl, rfl, rfl, ?_⟩
  intro entry member
  simp only [fields, List.mem_cons, List.not_mem_nil, or_false] at member
  rcases member with rfl | rfl | rfl <;> simp

/-- A request to roll version bits that leaves both options to their defaults. -/
def defaultConfigure : StratumRequest :=
  .configure ["version-rolling", "minimum-difficulty"]
    ⟨[("version-rolling.mask", .null)], none, none, ⟨rfl, nofun⟩, ⟨rfl, nofun⟩⟩

end ComptoMiningPool
