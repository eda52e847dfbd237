import ComptoMiningPool.Async.Local
import ComptoMiningPool.Client.Startup

/-
This file proves why a connection writes each of its lines: which request or template the line answers, and
what the handler had learned before.
-/

namespace ComptoMiningPool

open JavaScript Async

/-- The thread of the history handles a request of the method with these fields. -/
def Handles (history : ClientHistory) (method : RequestMethod) (fields : Fields) : Prop :=
  ∃ request value, Event.started (.line (some request)) ∈ history ∧
    Value.field (some request) "method" = .ok value ∧ RequestMethod.ofValue value = some method ∧
    fields = requestFields request

/-- The decoder rejects a request of the method with these errors. -/
def Decoder.Rejects (decoder : Decoder) (method : RequestMethod) (fields : Fields) (id : Json)
    (errors : List ValidationError) : Prop :=
  match method with
  | .subscribe => decoder.subscription fields = .ok (.invalid id errors)
  | .configure => decoder.configuration fields = .ok (.invalid id errors)
  | .authorize => decoder.authorization fields = .ok (.invalid id errors)
  | .submit => decoder.submit fields = .ok (.invalid id errors)
  | .suggestDifficulty => False

/-- The chain service answered the proof of the thread with this reply. -/
def Replied (history : ClientHistory) (reply : Reply Bool) : Prop :=
  ∃ submission answer, Event.answered (.submitProof submission) (.ok answer) ∈ history ∧ answer.reply = reply

/-- Each refusal of a submission has its own reason. -/
inductive Refusal (history : ClientHistory) (message : MiningSubmitMessage) : StratumErrorCode → String → Prop where
  | maskRequired (missing : hasValue message.versionMask = false) :
      Refusal history message .otherUnknown "Version mask is required for version rolling"
  | maskNotAllowed (present : hasValue message.versionMask = true) :
      Refusal history message .otherUnknown "Version mask is not allowed"
  | jobNotFound (looked : Event.called (.getJobById message.jobId) none ∈ history) :
      Refusal history message .jobNotFound "Job not found"
  | invalidMask (looked : ∃ job, Event.called (.getJobById message.jobId) (some job) ∈ history)
      (present : hasValue message.versionMask = true) :
      Refusal history message .otherUnknown "Invalid version mask"
  | difficultyTooLow (replied : Replied history (.error (some (.string "Difficulty too low")))) :
      Refusal history message .lowDifficultyShare "Difficulty too low"
  | notMined {error : Value} (replied : Replied history (.error error)) (failed : hasValue error = true) :
      Refusal history message .otherUnknown "Error mining comptokens"

/-- The line that refuses a mask. -/
def invalidMaskLine (message : MiningSubmitMessage) : Line :=
  .error message.id .otherUnknown "Invalid version mask" []

/-- A line of a thread notifies the job of its template, starts the stratum, or answers its request. The
success line of a submission follows a mint and payout or the refusal of its mask. -/
inductive Answers (decoder : Decoder) (history : ClientHistory) : Line → Prop where
  | notified {template : JobTemplate} {job : MiningJob} {line : Line}
      (started : Event.started (.newMiningJob template) ∈ history)
      (added : Event.called (.addJob template) job ∈ history) (built : job.response template = .ok line) :
      Answers decoder history line
  | difficulty {sessionDifficulty : Number} (initialized : Event.called .initializing () ∈ history) :
      Answers decoder history (.setDifficulty sessionDifficulty)
  | invalid {method : RequestMethod} {fields : Fields} {id : Json} {errors : List ValidationError}
      (handles : Handles history method fields) (rejects : decoder.Rejects method fields id errors) :
      Answers decoder history (.error id .otherUnknown "Validation error" (errors.map ValidationError.value))
  | subscribed {fields : Fields} {message : SubscriptionMessage} (clientId : Option String)
      (handles : Handles history .subscribe fields) (valid : decoder.subscription fields = .ok (.valid message)) :
      Answers decoder history (message.response clientId)
  | configured {fields : Fields} {message : ConfigurationMessage}
      (handles : Handles history .configure fields) (valid : decoder.configuration fields = .ok (.valid message)) :
      Answers decoder history message.response
  | authorized {fields : Fields} {message : AuthorizationMessage}
      (handles : Handles history .authorize fields) (valid : decoder.authorization fields = .ok (.valid message)) :
      Answers decoder history message.response
  | refused {fields : Fields} {message : MiningSubmitMessage} {code : StratumErrorCode} {text : String}
      (handles : Handles history .submit fields) (valid : decoder.submit fields = .ok (.valid message))
      (refusal : Refusal history message code text) : Answers decoder history (.error message.id code text [])
  | accepted {fields : Fields} {message : MiningSubmitMessage}
      (handles : Handles history .submit fields) (valid : decoder.submit fields = .ok (.valid message))
      (paid : Replied history (.result true) ∨ Event.issued (.writeSocket (invalidMaskLine message)) ∈ history) :
      Answers decoder history message.response

section Growth

variable {before after : ClientHistory}

theorem Handles.mono (grows : before ⊆ after) {method : RequestMethod} {fields : Fields} :
    Handles before method fields → Handles after method fields := by
  rintro ⟨request, value, started, rest⟩
  exact ⟨request, value, grows started, rest⟩

theorem Replied.mono (grows : before ⊆ after) {reply : Reply Bool} :
    Replied before reply → Replied after reply := by
  rintro ⟨submission, answer, answered, same⟩
  exact ⟨submission, answer, grows answered, same⟩

end Growth

/-- The decoder answers its four validations, and every other call answers anything. -/
def clientAnswers (decoder : Decoder) : (call : ClientCall) → ClientAnswer call → Prop
  | .validateSubscription fields, answer => answer = decoder.subscription fields
  | .validateConfiguration fields, answer => answer = decoder.configuration fields
  | .validateAuthorization fields, answer => answer = decoder.authorization fields
  | .validateSubmit fields, answer => answer = decoder.submit fields
  | _, _ => True

theorem clientAnswers_of_admits {decoder : Decoder} {me : ℕ} {state : ClientState} {trace : ClientTrace}
    {call : ClientCall} {answer : ClientAnswer call} (admits : clientAdmits decoder me state trace call answer) :
    clientAnswers decoder call answer := by
  cases call with
  | validateSubscription fields => exact admits
  | validateConfiguration fields => exact admits
  | validateAuthorization fields => exact admits
  | validateSubmit fields => exact admits
  | _ => trivial

/-- The proof repeats the nonce and the time of the submission that the thread handles. -/
def ProvesOwn (decoder : Decoder) (history : ClientHistory) (submission : Submission) : Prop :=
  ∃ fields message, Handles history .submit fields ∧ decoder.submit fields = .ok (.valid message) ∧
    submission.nonce = parseHex message.nonce ∧ submission.timestamp = parseHex message.ntime

/-- The monitor asks for the reason of each line and of each proof, and a validation belongs to the request of its
thread. -/
def answersOwn (decoder : Decoder) (history : ClientHistory) : ClientEvent → Prop
  | .issued (.writeSocket line) => Answers decoder history line
  | .issued (.validateSubscription fields) => Handles history .subscribe fields
  | .issued (.validateConfiguration fields) => Handles history .configure fields
  | .issued (.validateAuthorization fields) => Handles history .authorize fields
  | .issued (.validateSubmit fields) => Handles history .submit fields
  | .issued (.submitProof submission) => ProvesOwn decoder history submission
  | .answered (.validateSubscription fields) _ => Handles history .subscribe fields
  | .answered (.validateConfiguration fields) _ => Handles history .configure fields
  | .answered (.validateAuthorization fields) _ => Handles history .authorize fields
  | .answered (.validateSubmit fields) _ => Handles history .submit fields
  | _ => True

/-- A silent call neither writes nor validates nor hands a proof over. -/
def ClientCall.Silent : ClientCall → Prop
  | .writeSocket _ => False
  | .submitProof _ => False
  | .validateSubscription _ => False
  | .validateConfiguration _ => False
  | .validateAuthorization _ => False
  | .validateSubmit _ => False
  | _ => True

theorem accepts_silent (decoder : Decoder) : Accepts (answersOwn decoder) ClientCall.Silent := by
  intro history event request asked silent
  cases event with
  | issued request' =>
      obtain rfl := Option.some.inj asked
      cases request' with
      | writeSocket line => exact silent.elim
      | submitProof submission => exact silent.elim
      | validateSubscription fields => exact silent.elim
      | validateConfiguration fields => exact silent.elim
      | validateAuthorization fields => exact silent.elim
      | validateSubmit fields => exact silent.elim
      | _ => trivial
  | answered request' answer =>
      obtain rfl := Option.some.inj asked
      cases request' with
      | validateSubscription fields => exact silent.elim
      | validateConfiguration fields => exact silent.elim
      | validateAuthorization fields => exact silent.elim
      | validateSubmit fields => exact silent.elim
      | _ => trivial
  | _ => trivial

section Handlers

variable {decoder : Decoder} {V : Type} {history : ClientHistory}

/-- The local precondition of the connection. -/
abbrev AnswersWp (decoder : Decoder) (program : ClientProgram V)
    (post : LocalPost ClientAnswer Thrown V ClientTask) (history : ClientHistory) : Prop :=
  localWp (clientAnswers decoder) (answersOwn decoder) program post history

/-- The thread goes on from its history. -/
def GoesOn (history : ClientHistory) : LocalPost ClientAnswer Thrown V ClientTask :=
  fun _ later => history <:+ later

/-- A write that returns `true` has issued its line. -/
def Writes (history : ClientHistory) (line : Line) : LocalPost ClientAnswer Thrown Bool ClientTask :=
  fun result later => history <:+ later ∧ (result = .ok true → Event.issued (.writeSocket line) ∈ later)

theorem answersWp_of_silent {program : ClientProgram V} {earlier : ClientHistory}
    (makes : Makes ClientCall.Silent program) (suffix : earlier <:+ history) :
    AnswersWp decoder program (GoesOn earlier) history :=
  localWp_of_makes (accepts_silent decoder) makes suffix

/-- A call that writes nothing lets the thread go on with its answer. -/
theorem answersWp_call {call : ClientCall} {next : ClientAnswer call → ClientProgram V}
    {post : LocalPost ClientAnswer Thrown V ClientTask} (silent : call.Silent)
    (continues : ∀ answer later, clientAnswers decoder call answer → history <:+ later →
      Event.called call answer ∈ later → AnswersWp decoder (next answer) post later) :
    AnswersWp decoder (.call call next) post history := by
  intro answer answered
  refine ⟨accepts_silent decoder _ _ call rfl silent, ?_⟩
  exact continues answer _ answered (List.suffix_cons _ _) List.mem_cons_self

/-- A validation is answered for the request that it was issued for. -/
theorem answersOwn_answered {call : ClientCall} (issued : answersOwn decoder history (.issued call))
    (answer : ClientAnswer call) : answersOwn decoder (.issued call :: history) (.answered call answer) := by
  have grows : history ⊆ .issued call :: history := List.subset_cons_self _ _
  cases call with
  | validateSubscription fields => exact Handles.mono grows issued
  | validateConfiguration fields => exact Handles.mono grows issued
  | validateAuthorization fields => exact Handles.mono grows issued
  | validateSubmit fields => exact Handles.mono grows issued
  | _ => trivial

/-- An await whose request has its reason lets the thread go on with its answer. -/
theorem answersWp_await {call : ClientCall} {next : ClientAnswer call → ClientProgram V}
    {post : LocalPost ClientAnswer Thrown V ClientTask} (issued : answersOwn decoder history (.issued call))
    (continues : ∀ answer later, clientAnswers decoder call answer → history <:+ later →
      Event.answered call answer ∈ later → AnswersWp decoder (next answer) post later) :
    AnswersWp decoder (.await call next) post history := by
  refine ⟨issued, ?_⟩
  intro answer answered
  refine ⟨answersOwn_answered issued answer, continues answer _ answered ?_ List.mem_cons_self⟩
  exact (List.suffix_cons _ _).trans (List.suffix_cons _ _)

theorem goesOn_clientTurn {earlier : ClientHistory} (suffix : earlier <:+ history) :
    earlier <:+ clientTurn history :=
  suffix.trans ((List.suffix_cons _ _).trans (List.suffix_cons _ _))

/-- A turn keeps a postcondition that lasts. -/
theorem answersWp_joined {program : ClientProgram V} {post : LocalPost ClientAnswer Thrown V ClientTask}
    (lasts : ∀ result later, post result later → post result (clientTurn later))
    (holds : AnswersWp decoder program post history) :
    AnswersWp decoder (program.joined .turn) post history := by
  rw [AnswersWp, localWp_joined]
  apply localWp_mono _ holds
  intro result later reached
  refine ⟨accepts_silent decoder _ _ .turn rfl trivial, ?_⟩
  intro answer _
  refine ⟨accepts_silent decoder _ _ .turn rfl trivial, ?_⟩
  rw [localWp_ofExcept]
  exact lasts result later reached

theorem answersWp_joined_of_goesOn {program : ClientProgram V} {earlier : ClientHistory}
    (holds : AnswersWp decoder program (GoesOn earlier) history) :
    AnswersWp decoder (program.joined .turn) (GoesOn earlier) history :=
  answersWp_joined (fun _ _ suffix => goesOn_clientTurn suffix) holds

/-- A sequence goes on when both of its programs do. -/
theorem answersWp_bind_of_goesOn {W : Type} {program : ClientProgram V} {rest : V → ClientProgram W}
    {earlier : ClientHistory} (first : AnswersWp decoder program (GoesOn earlier) history)
    (second : ∀ value later, earlier <:+ later → AnswersWp decoder (rest value) (GoesOn earlier) later) :
    AnswersWp decoder (program.bind rest) (GoesOn earlier) history :=
  localWp_bind_of first (fun _ _ suffix => suffix) second

/-- A program without writes that returns `false` writes no line. -/
theorem writes_of_closed {program : ClientProgram Unit} {line : Line} {earlier : ClientHistory}
    (makes : Makes ClientCall.Silent program) (suffix : earlier <:+ history) :
    AnswersWp decoder (program.bind fun _ => .done false) (Writes earlier line) history := by
  apply localWp_bind_of (answersWp_of_silent makes suffix)
  · exact fun thrown later grown => ⟨grown, fun impossible => by cases impossible⟩
  · exact fun value later grown => ⟨grown, fun impossible => by cases impossible⟩

theorem silent_endSocket : Makes ClientCall.Silent endSocket :=
  ⟨trivial, fun _ _ => ⟨trivial, fun _ => trivial⟩⟩

theorem silent_destroySocket : Makes ClientCall.Silent destroySocket := ⟨trivial, fun _ _ => trivial⟩

theorem answersWp_writeToClosed (line : Line) {earlier : ClientHistory} (suffix : earlier <:+ history) :
    AnswersWp decoder writeToClosed (Writes earlier line) history := by
  refine answersWp_call trivial ?_
  intro _ later _ grown _ state
  show AnswersWp decoder (if !state.destroyed then destroySocket.bind fun _ => .done false else .done false) _ _
  split
  · exact writes_of_closed silent_destroySocket (suffix.trans grown)
  · exact ⟨suffix.trans grown, fun impossible => by cases impossible⟩

theorem answersWp_writeFailed {line : Line} {earlier : ClientHistory} (suffix : earlier <:+ history) :
    AnswersWp decoder writeFailed (Writes earlier line) history := by
  refine answersWp_call trivial ?_
  intro _ later _ grown _ state
  show AnswersWp decoder (if !state.writableEnded then endSocket.bind fun _ => .done false
    else if !state.destroyed then destroySocket.bind fun _ => .done false else .done false) _ _
  split
  · exact writes_of_closed silent_endSocket (suffix.trans grown)
  · split
    · exact writes_of_closed silent_destroySocket (suffix.trans grown)
    · exact ⟨suffix.trans grown, fun impossible => by cases impossible⟩

/-- A reason for the line is all that a write needs. -/
theorem answersWp_write {line : Line} {earlier : ClientHistory} (answers : Answers decoder history line)
    (suffix : earlier <:+ history) : AnswersWp decoder (write line) (Writes earlier line) history := by
  unfold write
  rw [AnswersWp, localWp_attempt]
  intro state
  show AnswersWp decoder (if !state.destroyed && !state.writableEnded then
    .await (.writeSocket line) fun written => (Program.ofExcept written).bind fun _ => .done true
    else writeToClosed) _ _
  split
  · refine ⟨answers, ?_⟩
    intro written _
    refine ⟨trivial, ?_⟩
    have grown : earlier <:+ Event.answered (.writeSocket line) written :: .issued (.writeSocket line) :: history :=
      suffix.trans ((List.suffix_cons _ _).trans (List.suffix_cons _ _))
    cases written with
    | error thrown => exact answersWp_writeFailed grown
    | ok done =>
        refine ⟨grown, fun _ => ?_⟩
        exact List.mem_cons_of_mem _ List.mem_cons_self
  · apply localWp_mono _ (answersWp_writeToClosed line suffix)
    intro result later wrote
    cases result with
    | error thrown => exact answersWp_writeFailed wrote.1
    | ok value => exact wrote

theorem answersWp_reply {line : Line} {earlier : ClientHistory} (answers : Answers decoder history line)
    (suffix : earlier <:+ history) :
    AnswersWp decoder ((write line).joined .turn) (Writes earlier line) history := by
  apply answersWp_joined _ (answersWp_write answers suffix)
  rintro result later ⟨grown, wrote⟩
  refine ⟨goesOn_clientTurn grown, fun written => ?_⟩
  exact List.mem_cons_of_mem _ (List.mem_cons_of_mem _ (wrote written))

/-- A validation returns what the decoder says, or its error is answered. -/
theorem answersWp_validateMessage {M : Type} {validate : ClientProgram (Validated M)} {method : RequestMethod}
    {fields : Fields} {decoded : Except Thrown (Validated M)}
    (rejects : ∀ id errors, decoded = .ok (.invalid id errors) → decoder.Rejects method fields id errors)
    (validates : AnswersWp decoder validate (fun result later => history <:+ later ∧ result = decoded) history)
    (handles : Handles history method fields) :
    AnswersWp decoder ((validateMessage validate).joined .turn) (fun result later => history <:+ later ∧
      ∀ message, result = .ok (.ok message) → decoded = .ok (.valid message)) history := by
  apply answersWp_joined
  · rintro result later ⟨grown, valid⟩
    exact ⟨goesOn_clientTurn grown, valid⟩
  unfold validateMessage
  apply localWp_bind_of validates
  · exact fun thrown later grown => ⟨grown.1, fun _ impossible => by cases impossible⟩
  rintro validated later ⟨grown, rfl⟩
  cases validated with
  | valid message =>
      refine ⟨grown, fun other same => ?_⟩
      cases same
      rfl
  | invalid id errors =>
      have answers : Answers decoder later (.error id .otherUnknown "Validation error"
          (errors.map ValidationError.value)) :=
        .invalid (handles.mono grown.subset) (rejects id errors rfl)
      apply localWp_bind_of (answersWp_reply answers grown)
      · exact fun thrown last grown => ⟨grown.1, fun _ impossible => by cases impossible⟩
      · exact fun written last grown => ⟨grown.1, fun _ impossible => by cases impossible⟩

/-- The validations of the connection ask the decoder about the request of their thread. -/
theorem answersWp_asked {M : Type} {call : ClientCall} {read : ClientAnswer call → Except Thrown (Validated M)}
    {decoded : Except Thrown (Validated M)} (own : answersOwn decoder history (.issued call))
    (answered : ∀ answer, clientAnswers decoder call answer → read answer = decoded) :
    AnswersWp decoder ((Program.awaiting call).bind fun answer => .ofExcept (read answer))
      (fun result later => history <:+ later ∧ result = decoded) history := by
  refine ⟨own, ?_⟩
  intro answer admitted
  refine ⟨answersOwn_answered own answer, ?_⟩
  show AnswersWp decoder (.ofExcept (read answer)) _ _
  rw [AnswersWp, localWp_ofExcept]
  exact ⟨(List.suffix_cons _ _).trans (List.suffix_cons _ _), answered answer admitted⟩

theorem silent_startSession : Makes ClientCall.Silent startSession := by
  apply makes_load
  intro state
  split
  · exact ⟨trivial, fun _ _ => ⟨trivial, fun _ _ => trivial⟩⟩
  · trivial

theorem answersWp_handleSubscriptionMessage {fields : Fields} (handles : Handles history .subscribe fields) :
    AnswersWp decoder (handleSubscriptionMessage fields) (GoesOn history) history := by
  have validates : AnswersWp decoder (validateSubscription fields)
      (fun result later => history <:+ later ∧ result = decoder.subscription fields) history :=
    answersWp_asked handles fun _ admitted => admitted
  have rejects : ∀ id errors, decoder.subscription fields = .ok (.invalid id errors) →
      decoder.Rejects .subscribe fields id errors := fun _ _ same => same
  apply localWp_bind_of (answersWp_validateMessage rejects validates handles)
  · exact fun thrown later grown => grown.1
  rintro outcome later ⟨grown, valid⟩
  cases outcome with
  | error written => exact grown
  | ok message =>
      apply answersWp_bind_of_goesOn (answersWp_of_silent silent_startSession grown)
      intro _ last grown _ state
      have answers := Answers.subscribed state.extraNonceAndSessionId (handles.mono grown.subset)
        (valid message rfl)
      exact localWp_mono (fun _ _ wrote => wrote.1) (answersWp_reply answers grown)

theorem answersWp_handleConfigureMessage {fields : Fields} (handles : Handles history .configure fields) :
    AnswersWp decoder (handleConfigureMessage fields) (GoesOn history) history := by
  have validates : AnswersWp decoder (validateConfiguration fields)
      (fun result later => history <:+ later ∧ result = decoder.configuration fields) history :=
    answersWp_asked handles fun _ admitted => admitted
  have rejects : ∀ id errors, decoder.configuration fields = .ok (.invalid id errors) →
      decoder.Rejects .configure fields id errors := fun _ _ same => same
  apply localWp_bind_of (answersWp_validateMessage rejects validates handles)
  · exact fun thrown later grown => grown.1
  rintro outcome later ⟨grown, valid⟩
  cases outcome with
  | error written => exact grown
  | ok message =>
      intro state
      have answers := Answers.configured (handles.mono grown.subset) (valid message rfl)
      exact localWp_mono (fun _ _ wrote => wrote.1) (answersWp_reply answers grown)

theorem answersWp_handleAuthorizationMessage {fields : Fields} (handles : Handles history .authorize fields) :
    AnswersWp decoder (handleAuthorizationMessage fields) (GoesOn history) history := by
  have validates : AnswersWp decoder (validateAuthorization fields)
      (fun result later => history <:+ later ∧ result = decoder.authorization fields) history :=
    answersWp_asked handles fun _ admitted => admitted
  have rejects : ∀ id errors, decoder.authorization fields = .ok (.invalid id errors) →
      decoder.Rejects .authorize fields id errors := fun _ _ same => same
  apply localWp_bind_of (answersWp_validateMessage rejects validates handles)
  · exact fun thrown later grown => grown.1
  rintro outcome later ⟨grown, valid⟩
  cases outcome with
  | error written => exact grown
  | ok message =>
      intro state
      refine answersWp_call trivial ?_
      intro _ last _ grows _
      have grown := grown.trans grows
      have answers := Answers.authorized (handles.mono grown.subset) (valid message rfl)
      exact localWp_mono (fun _ _ wrote => wrote.1) (answersWp_reply answers grown)

theorem silent_assert_bind {asserted : Asserted} {condition : Bool} {message : String}
    {rest : Unit → ClientProgram V} (makes : Makes ClientCall.Silent (rest ())) :
    Makes ClientCall.Silent ((assert asserted condition message).bind rest) := by
  refine ⟨trivial, ?_⟩
  intro _
  cases condition with
  | false => trivial
  | true => exact makes

theorem silent_createEntity : Makes ClientCall.Silent createEntity := by
  apply makes_load
  intro state
  apply silent_assert_bind
  apply silent_assert_bind
  apply silent_assert_bind
  refine ⟨trivial, fun startTime => ⟨trivial, fun inserted => ?_⟩⟩
  apply (makes_ofExcept inserted).bind
  intro _ state
  trivial

theorem silent_awaitEntity : Makes ClientCall.Silent awaitEntity := by
  apply makes_load
  intro state
  split
  · trivial
  · split
    · intro _
      have created : Makes ClientCall.Silent (Program.attempt
          (createEntity.bind fun _ => .done (Except.ok ())) fun thrown => .done (.error thrown)) :=
        Makes.attempt (silent_createEntity.bind fun _ => trivial) fun _ => trivial
      exact created.bind fun result _ => ⟨trivial, fun _ => makes_ofExcept result⟩
    · exact ⟨trivial, makes_ofExcept⟩

/-- A submission that is answered with success was paid, or its mask was refused. -/
def Paid (message : MiningSubmitMessage) (history : ClientHistory) : Prop :=
  Replied history (.result true) ∨ Event.issued (.writeSocket (invalidMaskLine message)) ∈ history

/-- A submission that returns `true` is paid. -/
def SubmissionAnswered (history : ClientHistory) (message : MiningSubmitMessage) : LocalPost ClientAnswer Thrown Bool ClientTask :=
  fun result later => history <:+ later ∧ (result = .ok true → Paid message later)

/-- A refusal writes its line and then returns `false`. -/
theorem answersWp_refuse {earlier : ClientHistory} {fields : Fields} {message : MiningSubmitMessage}
    {code : StratumErrorCode} {text : String} (grown : earlier <:+ history)
    (handles : Handles history .submit fields) (valid : decoder.submit fields = .ok (.valid message))
    (refusal : Refusal history message code text) :
    AnswersWp decoder (((write (.error message.id code text [])).joined .turn).bind fun _ => .done false)
      (SubmissionAnswered earlier message) history := by
  apply localWp_bind_of (answersWp_reply (.refused handles valid refusal) grown)
  · exact fun thrown later wrote => ⟨wrote.1, fun impossible => by cases impossible⟩
  · exact fun written later wrote => ⟨wrote.1, fun impossible => by cases impossible⟩

theorem value_of_text {value : Value} {text : String} (isText : value.isString = true) (same : value.text = text) :
    value = some (.string text) := by
  unfold Value.isString at isText
  split at isText
  · exact congrArg (fun text => some (Json.string text)) same
  · cases isText

section Submission

variable {earlier : ClientHistory} {fields : Fields} {message : MiningSubmitMessage}

theorem answersWp_payMiner (extraData : Bytes) (version : Number) (grown : earlier <:+ history)
    (handles : Handles history .submit fields) (valid : decoder.submit fields = .ok (.valid message)) :
    AnswersWp decoder (payMiner message extraData version) (SubmissionAnswered earlier message) history := by
  refine answersWp_call trivial ?_
  intro fee charged _ grows _
  refine answersWp_call trivial ?_
  intro _ asserted _ grows' _
  have grown := grown.trans (grows.trans grows')
  have handles := handles.mono (grows.trans grows').subset
  cases validFee fee with
  | false => exact ⟨grown, fun impossible => by cases impossible⟩
  | true =>
      intro state
      simp only [Program.pure_eq, Program.bind]
      cases state.clientAuthorization with
      | none => exact ⟨grown, fun impossible => by cases impossible⟩
      | some clientAuthorization =>
          refine answersWp_await ⟨fields, message, handles, valid, rfl, rfl⟩ ?_
          intro answer later _ grows answered
          have grown := grown.trans grows
          have handles := handles.mono grows.subset
          cases answer with
          | error thrown => exact ⟨grown, fun impossible => by cases impossible⟩
          | ok proofReply =>
              show AnswersWp decoder (if hasValue proofReply.reply.error? then if _ then _ else _ else _) _ _
              cases failed : hasValue proofReply.reply.error? with
              | false =>
                  refine ⟨grown, fun _ => .inl ⟨_, proofReply, answered, ?_⟩⟩
                  exact proofReply.decided.resolve_right (by simp [failed])
              | true =>
                  have replied : Replied later (.error proofReply.reply.error?) := by
                    refine ⟨_, proofReply, answered, ?_⟩
                    cases reply : proofReply.reply with
                    | error error => rfl
                    | result value =>
                        rw [reply] at failed
                        cases failed
                  simp only [if_true]
                  split
                  · rename_i low
                    rw [Bool.and_eq_true, beq_iff_eq] at low
                    rw [value_of_text low.1 low.2] at replied
                    exact answersWp_refuse grown handles valid (.difficultyTooLow replied)
                  · exact answersWp_refuse grown handles valid (.notMined replied failed)

theorem answersWp_rollVersion (version : ℕ)
    (handles : Handles history .submit fields) (valid : decoder.submit fields = .ok (.valid message))
    (looked : ∃ job, Event.called (.getJobById message.jobId) (some job) ∈ history) :
    AnswersWp decoder (rollVersion message version) (fun result later => history <:+ later ∧
      (result = .ok (.error true) → Paid message later)) history := by
  intro state
  simp only [Program.bind_eq, Program.bind]
  cases state.clientConfiguration with
  | none => exact ⟨List.suffix_rfl, fun impossible => by cases impossible⟩
  | some configuration =>
      cases rolling : configuration.versionRolling with
      | false =>
          simp only [rolling]
          exact ⟨List.suffix_rfl, fun impossible => by cases impossible⟩
      | true =>
          simp only [rolling, if_true]
          refine answersWp_call trivial ?_
          intro _ later _ grows _
          cases present : hasValue message.versionMask with
          | false => exact ⟨grows, fun impossible => by cases impossible⟩
          | true =>
              show AnswersWp decoder (if _ then _ else _) _ _
              split
              · obtain ⟨job, found⟩ := looked
                have refusal : Refusal later message .otherUnknown "Invalid version mask" :=
                  .invalidMask ⟨job, grows.subset found⟩ present
                have answers := Answers.refused (handles.mono grows.subset) valid refusal
                apply localWp_bind_of (answersWp_reply answers grows)
                · exact fun thrown last wrote => ⟨wrote.1, fun impossible => by cases impossible⟩
                · rintro written last ⟨grown, wrote⟩
                  refine ⟨grown, fun refused => .inr (wrote ?_)⟩
                  cases refused
                  rfl
              · exact ⟨grows, fun impossible => by cases impossible⟩

theorem answersWp_submitShare (sha256 : Bytes → Bytes) (template : JobTemplate) (grown : earlier <:+ history)
    (handles : Handles history .submit fields) (valid : decoder.submit fields = .ok (.valid message))
    (looked : ∃ job, Event.called (.getJobById message.jobId) (some job) ∈ history) :
    AnswersWp decoder (submitShare sha256 message template) (SubmissionAnswered earlier message) history := by
  intro state
  simp only [Program.bind_eq, Program.bind]
  apply localWp_bind_of (answersWp_rollVersion template.block.version handles valid looked)
  · exact fun thrown later rolled => ⟨grown.trans rolled.1, fun impossible => by cases impossible⟩
  rintro outcome later ⟨grows, refused⟩
  cases outcome with
  | error written =>
      refine ⟨grown.trans grows, fun same => refused ?_⟩
      cases same
      rfl
  | ok version =>
      exact answersWp_payMiner _ version (grown.trans grows) (handles.mono grows.subset) valid

theorem answersWp_handleMiningSubmission (sha256 : Bytes → Bytes) (handles : Handles history .submit fields)
    (valid : decoder.submit fields = .ok (.valid message)) :
    AnswersWp decoder (handleMiningSubmission sha256 message) (SubmissionAnswered history message) history := by
  intro state
  simp only [Program.bind_eq, Program.bind]
  refine answersWp_call trivial ?_
  intro _ asserted _ grown _
  cases state.clientAuthorization.isSome with
  | false => exact ⟨grown, fun impossible => by cases impossible⟩
  | true =>
      apply localWp_bind_of (answersWp_of_silent silent_awaitEntity grown)
      · exact fun thrown later grown => ⟨grown, fun impossible => by cases impossible⟩
      intro _ later grown
      refine answersWp_call trivial ?_
      intro job found _ grows looked
      have grown := grown.trans grows
      have handles := handles.mono grown.subset
      cases job with
      | none => exact answersWp_refuse grown handles valid (.jobNotFound looked)
      | some job =>
          refine answersWp_call trivial ?_
          intro jobTemplate last _ grows _
          have grown := grown.trans grows
          have handles := handles.mono grows.subset
          have looked := grows.subset looked
          refine answersWp_call trivial ?_
          intro _ last' _ grows _
          have grown := grown.trans grows
          have handles := handles.mono grows.subset
          have looked := grows.subset looked
          cases jobTemplate with
          | none => exact ⟨grown, fun impossible => by cases impossible⟩
          | some entry =>
              cases entry with
              | inherited => exact ⟨grown, fun impossible => by cases impossible⟩
              | own template => exact answersWp_submitShare sha256 template grown handles valid ⟨job, looked⟩

/-- The success line follows a submission that returned `true`. -/
theorem answersWp_handleSubmitMessage (sha256 : Bytes → Bytes) (handles : Handles history .submit fields) :
    AnswersWp decoder (handleSubmitMessage sha256 fields) (GoesOn history) history := by
  have validates : AnswersWp decoder (validateSubmit fields)
      (fun result later => history <:+ later ∧ result = decoder.submit fields) history :=
    answersWp_asked handles fun _ admitted => admitted
  have rejects : ∀ id errors, decoder.submit fields = .ok (.invalid id errors) →
      decoder.Rejects .submit fields id errors := fun _ _ same => same
  apply localWp_bind_of (answersWp_validateMessage rejects validates handles)
  · exact fun thrown later grown => grown.1
  rintro outcome later ⟨grown, valid⟩
  cases outcome with
  | error written => exact grown
  | ok message =>
      have valid := valid message rfl
      have handles := handles.mono grown.subset
      intro state
      show AnswersWp decoder (if _ then _ else _) _ _
      split
      · have refusal : Refusal later message .otherUnknown (if !hasValue message.versionMask
            then "Version mask is required for version rolling" else "Version mask is not allowed") := by
          cases present : hasValue message.versionMask with
          | false => exact .maskRequired present
          | true => exact .maskNotAllowed present
        exact localWp_mono (fun _ _ submitted => submitted.1) (answersWp_refuse grown handles valid refusal)
      · have submits : AnswersWp decoder ((handleMiningSubmission sha256 message).joined .turn)
            (SubmissionAnswered later message) later := by
          apply answersWp_joined _ (answersWp_handleMiningSubmission sha256 handles valid)
          rintro result last ⟨grows, paid⟩
          refine ⟨goesOn_clientTurn grows, fun submitted => ?_⟩
          have within : last ⊆ clientTurn last := (goesOn_clientTurn List.suffix_rfl).subset
          exact (paid submitted).imp (Replied.mono within) fun issued => within issued
        apply localWp_bind_of submits
        · exact fun thrown last submitted => grown.trans submitted.1
        rintro result last ⟨grows, paid⟩
        cases result with
        | false => exact grown.trans grows
        | true =>
            have answers := Answers.accepted (handles.mono grows.subset) valid (paid rfl)
            exact localWp_mono (fun _ _ wrote => wrote.1) (answersWp_reply answers (grown.trans grows))

end Submission

theorem answersWp_setDifficultyAndSubscribe {earlier : ClientHistory} (sessionDifficulty : Number)
    (grown : earlier <:+ history) (initialized : Event.called .initializing () ∈ history) :
    AnswersWp decoder (setDifficultyAndSubscribe sessionDifficulty) (GoesOn earlier) history := by
  have answers : Answers decoder history (.setDifficulty sessionDifficulty) := .difficulty initialized
  apply localWp_bind_of (answersWp_reply answers grown)
  · exact fun thrown later wrote => wrote.1
  intro success later wrote
  cases success with
  | false => exact wrote.1
  | true =>
      refine answersWp_call trivial ?_
      intro _ last _ grows _ state
      exact wrote.1.trans grows

theorem answersWp_initStratum {earlier : ClientHistory} (grown : earlier <:+ history) :
    AnswersWp decoder initStratum (GoesOn earlier) history := by
  refine answersWp_call trivial ?_
  intro _ later _ grows initialized state
  have grown := grown.trans grows
  refine answersWp_call trivial ?_
  intro _ subscribed _ grows _
  have initialized := grows.subset initialized
  have grown := grown.trans grows
  cases state.clientSubscription.isSome with
  | false => exact grown
  | true =>
      refine answersWp_call trivial ?_
      intro _ authorized _ grows _
      have initialized := grows.subset initialized
      have grown := grown.trans grows
      cases state.clientAuthorization.isSome with
      | false => exact grown
      | true =>
          intro state
          refine answersWp_call trivial ?_
          intro cluster clustered _ grows _
          have initialized := grows.subset initialized
          have grown := grown.trans grows
          refine answersWp_call trivial ?_
          intro rawDifficulty configured _ grows _
          exact answersWp_setDifficultyAndSubscribe _ (grown.trans grows) (grows.subset initialized)

theorem answersWp_startWhenReady {earlier : ClientHistory} (grown : earlier <:+ history) :
    AnswersWp decoder startWhenReady (GoesOn earlier) history := by
  intro state
  simp only [Program.bind]
  split
  · exact answersWp_joined_of_goesOn (answersWp_initStratum grown)
  · exact grown

theorem answersWp_dispatch (sha256 : Bytes → Bytes) {request : Json} {value : Value}
    (started : Event.started (.line (some request)) ∈ history)
    (named : Value.field (some request) "method" = .ok value) :
    AnswersWp decoder (dispatch sha256 (RequestMethod.ofValue value) (requestFields request)) (GoesOn history)
      history := by
  have handles : ∀ method, RequestMethod.ofValue value = some method →
      Handles history method (requestFields request) := fun _ same => ⟨request, value, started, named, same, rfl⟩
  cases method : RequestMethod.ofValue value with
  | none => exact List.suffix_rfl
  | some method' =>
      have handles := handles method' method
      cases method' with
      | subscribe => exact answersWp_joined_of_goesOn (answersWp_handleSubscriptionMessage handles)
      | configure => exact answersWp_joined_of_goesOn (answersWp_handleConfigureMessage handles)
      | authorize => exact answersWp_joined_of_goesOn (answersWp_handleAuthorizationMessage handles)
      | suggestDifficulty => exact List.suffix_rfl
      | submit =>
          intro state
          show AnswersWp decoder (if _ then _ else _) _ _
          split
          · apply answersWp_bind_of_goesOn (answersWp_of_silent silent_endSocket List.suffix_rfl)
            exact fun _ later grown => grown
          · exact answersWp_joined_of_goesOn (answersWp_handleSubmitMessage sha256 handles)

theorem answersWp_handleMessage (sha256 : Bytes → Bytes) {message : Option Json}
    (started : Event.started (.line message) ∈ history) :
    AnswersWp decoder (handleMessage sha256 message) (GoesOn history) history := by
  cases message with
  | none => exact answersWp_of_silent silent_endSocket List.suffix_rfl
  | some request =>
      unfold handleMessage
      cases named : Value.field (some request) "method" with
      | error thrown =>
          simp only [named]
          exact List.suffix_rfl
      | ok value =>
          simp only [named]
          apply answersWp_bind_of_goesOn (answersWp_dispatch sha256 started named)
          intro success later grown
          cases success with
          | false => exact grown
          | true => exact answersWp_startWhenReady grown

theorem answersWp_sendNewMiningJob {template : JobTemplate}
    (started : Event.started (.newMiningJob template) ∈ history) :
    AnswersWp decoder (sendNewMiningJob template) (GoesOn history) history := by
  refine answersWp_call trivial ?_
  intro job later _ grows added
  simp only [Program.bind_eq, Program.bind]
  cases built : job.response template with
  | error thrown => exact grows
  | ok line =>
      have answers : Answers decoder later line := .notified (grows.subset started) added built
      show AnswersWp decoder (((write line).joined .turn).bind fun _ => .done ()) (GoesOn history) later
      apply localWp_bind_of (answersWp_reply answers grows)
      · exact fun thrown last wrote => wrote.1
      · exact fun written last wrote => wrote.1

theorem silent_destroy : Makes ClientCall.Silent destroy := by
  have unsubscribes : Makes ClientCall.Silent (Program.load.bind fun state =>
      if state.stratumSubscription then Program.perform ClientCall.unsubscribe else .done () :
        ClientProgram Unit) := by
    apply makes_load
    intro state
    split
    · exact ⟨trivial, fun _ => trivial⟩
    · trivial
  apply makes_load
  intro state
  cases state.extraNonceAndSessionId with
  | none => exact unsubscribes
  | some sessionId => exact ⟨trivial, fun deleted => (makes_ofExcept deleted).bind fun _ => unsubscribes⟩

/-- A guarded callback ends the socket after an error and writes nothing more. -/
theorem answersWp_guarded {program : ClientProgram Unit} (holds : AnswersWp decoder program (GoesOn history) history) :
    AnswersWp decoder (guarded program) (GoesOn history) history := by
  rw [guarded, AnswersWp, localWp_attempt]
  apply localWp_mono _ (answersWp_joined_of_goesOn holds)
  intro result later grown
  cases result with
  | error thrown => exact answersWp_of_silent silent_endSocket grown
  | ok done => exact grown

end Handlers

section Decoding

/-- Each value of the computation has the property. -/
def Yields {V : Type} (property : V → Prop) (result : Except Thrown V) : Prop :=
  ∀ value, result = .ok value → property value

theorem Yields.bind {V W : Type} {property : W → Prop} {first : Except Thrown V} {rest : V → Except Thrown W}
    (continues : ∀ value, Yields property (rest value)) : Yields property (first >>= rest) := by
  intro value returned
  obtain ⟨middle, _, returned⟩ := exists_ok_of_bind returned
  exact continues middle value returned

/-- A decoded message and a rejection keep the id of the request. -/
def KeepsId {M : Type} (id : M → Json) (fields : Fields) (decoded : Validated M) : Prop :=
  (∀ requestId errors, decoded = .invalid requestId errors → requestId = messageId fields) ∧
    ∀ message, decoded = .valid message → id message = messageId fields

theorem yields_validated {M : Type} {id : M → Json} {fields : Fields} {checks : List PropertyCheck} {built : M}
    (same : id built = messageId fields) :
    Yields (KeepsId id fields) (pure (validated fields checks built)) := by
  intro decoded returned
  obtain rfl := Except.ok.inj returned
  rcases validated_cases fields checks built with accepted | ⟨errors, rejected⟩
  · rw [accepted]
    refine ⟨fun _ _ impossible => (by cases impossible), fun message equal => ?_⟩
    rw [← Validated.valid.inj equal]
    exact same
  · rw [rejected]
    exact ⟨fun _ _ equal => (Validated.invalid.inj equal).1.symm, fun _ impossible => by cases impossible⟩

variable (fields : Fields)

theorem SubscriptionMessage.yields_id :
    Yields (KeepsId SubscriptionMessage.id fields) (SubscriptionMessage.decode fields) := by
  unfold SubscriptionMessage.decode
  dsimp only
  have built : ∀ name : Value, Yields (KeepsId SubscriptionMessage.id fields) (do
      let userAgent ← if hasValue name then refineUserAgent <$> name.asString else pure "unknown"
      pure <| validated fields
        [⟨"params", fields.lookup "params", Value.isArray (fields.lookup "params")⟩,
          ⟨"userAgent", some (.string userAgent), userAgent.length ≤ 128⟩]
        ⟨messageId fields, userAgent⟩) := by
    intro name
    split
    · exact Yields.bind fun _ => yields_validated rfl
    · exact Yields.bind fun _ => yields_validated rfl
  split
  · exact Yields.bind built
  · exact Yields.bind built

theorem ConfigurationMessage.yields_id :
    Yields (KeepsId ConfigurationMessage.id fields) (ConfigurationMessage.decode fields) := by
  unfold ConfigurationMessage.decode
  apply Yields.bind
  intro first
  apply Yields.bind
  intro extensions
  apply Yields.bind
  intro options
  dsimp only
  split
  · apply Yields.bind
    intro mask
    exact Yields.bind fun _ => yields_validated rfl
  · apply Yields.bind
    intro mask
    exact Yields.bind fun _ => yields_validated rfl

theorem AuthorizationMessage.yields_id (isPublicKey : String → Bool) :
    Yields (KeepsId AuthorizationMessage.id fields) (AuthorizationMessage.decode isPublicKey fields) :=
  Yields.bind fun _ => Yields.bind fun _ => Yields.bind fun _ => yields_validated rfl

theorem MiningSubmitMessage.yields_id :
    Yields (KeepsId MiningSubmitMessage.id fields) (MiningSubmitMessage.decode fields) :=
  Yields.bind fun _ => Yields.bind fun _ => Yields.bind fun _ => Yields.bind fun _ => Yields.bind fun _ =>
    Yields.bind fun _ => yields_validated rfl

variable {fields}

theorem stratumDecoder_rejects {isPublicKey : String → Bool} {method : RequestMethod} {id : Json}
    {errors : List ValidationError} (rejects : (stratumDecoder isPublicKey).Rejects method fields id errors) :
    id = messageId fields := by
  cases method with
  | subscribe => exact (SubscriptionMessage.yields_id fields _ rejects).1 _ _ rfl
  | configure => exact (ConfigurationMessage.yields_id fields _ rejects).1 _ _ rfl
  | authorize => exact (AuthorizationMessage.yields_id fields isPublicKey _ rejects).1 _ _ rfl
  | submit => exact (MiningSubmitMessage.yields_id fields _ rejects).1 _ _ rfl
  | suggestDifficulty => exact rejects.elim

/-- A line with an id carries the id of the request that its thread handles. -/
theorem Answers.carries_id {isPublicKey : String → Bool} {history : ClientHistory} {line : Line}
    (answers : Answers (stratumDecoder isPublicKey) history line) {id : Json} (carried : line.id? = some id) :
    ∃ request, Event.started (.line (some request)) ∈ history ∧ id = messageId (requestFields request) := by
  have request_of : ∀ {method fields}, Handles history method fields →
      ∃ request, Event.started (.line (some request)) ∈ history ∧ messageId fields =
        messageId (requestFields request) := by
    rintro method fields ⟨request, value, started, _, _, rfl⟩
    exact ⟨request, started, rfl⟩
  cases answers with
  | @notified template job line started added built =>
      obtain ⟨params, rfl, _⟩ := MiningJob.response_ok built
      cases carried
  | difficulty initialized => cases carried
  | invalid handles rejects =>
      obtain rfl := Option.some.inj carried
      rw [stratumDecoder_rejects rejects]
      exact request_of handles
  | subscribed clientId handles valid =>
      obtain rfl := Option.some.inj carried
      rw [(SubscriptionMessage.yields_id _ _ valid).2 _ rfl]
      exact request_of handles
  | configured handles valid =>
      obtain rfl := Option.some.inj carried
      rw [(ConfigurationMessage.yields_id _ _ valid).2 _ rfl]
      exact request_of handles
  | authorized handles valid =>
      obtain rfl := Option.some.inj carried
      rw [(AuthorizationMessage.yields_id _ isPublicKey _ valid).2 _ rfl]
      exact request_of handles
  | refused handles valid refusal =>
      obtain rfl := Option.some.inj carried
      rw [(MiningSubmitMessage.yields_id _ _ valid).2 _ rfl]
      exact request_of handles
  | accepted handles valid paid =>
      obtain rfl := Option.some.inj carried
      rw [(MiningSubmitMessage.yields_id _ _ valid).2 _ rfl]
      exact request_of handles

end Decoding

section Systems

variable {sha256 : Bytes → Bytes} {decoder : Decoder}
  {system : System ClientState ClientAnswer Thrown Unit ClientTask}

/-- Each event of a connection has its reason in the own history of its thread. -/
theorem Reachable.answersOwn (reached : Reachable (clientSemantics sha256 decoder) {} system) {me : ℕ}
    {event : ClientEvent} (member : (me, event) ∈ system.trace) :
    ∃ history, event :: history <:+ own me system.trace ∧ answersOwn decoder history event := by
  have starts : ∀ task : ClientTask, ComptoMiningPool.answersOwn decoder [] (.started task) ∧
      AnswersWp decoder (task.program sha256) (fun _ _ => True) [.started task] := by
    intro task
    refine ⟨trivial, ?_⟩
    have holds : AnswersWp decoder (task.program sha256) (GoesOn [.started task]) [.started task] := by
      cases task with
      | line message => exact answersWp_guarded (answersWp_handleMessage sha256 List.mem_cons_self)
      | newMiningJob template => exact answersWp_guarded (answersWp_sendNewMiningJob List.mem_cons_self)
      | destroy => exact answersWp_of_silent silent_destroy List.suffix_rfl
    exact localWp_mono (fun _ _ _ => trivial) holds
  have admitted : ∀ {me state trace call answer},
      (clientSemantics sha256 decoder).admits me state trace call answer → clientAnswers decoder call answer := by
    intro me state trace call answer admits
    exact @clientAnswers_of_admits decoder me state trace call answer admits
  exact reached.exists_accepted admitted starts member

end Systems

/-- Each line of the trace has its reason in what its thread did before, and an id on it is the id of the
request that the thread handles. -/
def AnswersOwnRequests (decoder : Decoder) (trace : ClientTrace) : Prop :=
  ∀ me line, (me, .issued (.writeSocket line)) ∈ trace → ∃ history,
    Event.issued (.writeSocket line) :: history <:+ own me trace ∧ Answers decoder history line ∧
      ∀ id, line.id? = some id →
        ∃ request, Event.started (.line (some request)) ∈ history ∧ id = messageId (requestFields request)

/-- In every interleaving a connection writes a line only for the request or the template that started the
thread of the line, under the id of this request, and for the reason that the line names. -/
theorem connection_answers_own_requests (sha256 : Bytes → Bytes) (isPublicKey : String → Bool)
    {system : System ClientState ClientAnswer Thrown Unit ClientTask}
    (reached : Reachable (clientSemantics sha256 (stratumDecoder isPublicKey)) {} system) :
    AnswersOwnRequests (stratumDecoder isPublicKey) system.trace := by
  intro me line written
  obtain ⟨history, suffix, answers⟩ := Reachable.answersOwn reached written
  exact ⟨history, suffix, answers, fun id carried => answers.carries_id carried⟩

/-- The lines of a session that submits a share have their reasons. -/
theorem connection_answers_own_requests_session :
    (∃ pair ∈ sessionSystem.trace, (ClientEvent.line? pair.2).isSome = true) ∧
      AnswersOwnRequests (stratumDecoder fun _ => true) sessionSystem.trace :=
  ⟨by decide +kernel, connection_answers_own_requests _ _ sessionSystem_reachable⟩

end ComptoMiningPool
