import ComptoMiningPool.Client.Grammar

/-
This file proves which submits reach the chain service with the exact values of their fields.
-/

namespace ComptoMiningPool

open JavaScript Async

section Session

/-- A session id has eight base-16 digits. -/
def SessionDigits (state : ClientState) : Prop :=
  ∀ sessionId, state.extraNonceAndSessionId = some sessionId → HexDigits 8 sessionId

def keepsSessionDigits (before after : ClientState) : Prop := SessionDigits before → SessionDigits after

theorem keepsSessionDigits_of_store (state after : ClientState) (store : ClientStore state after) :
    keepsSessionDigits state after := by
  cases store with
  | session randomNumber =>
      intro _ sessionId stored
      obtain rfl := Option.some.inj stored
      exact hexDigits_padStart (by omega) randomNumber.isLt
  | _ => exact id

/-- The digits of the session id are a fact about the state alone. -/
def sessionContract (decoder : Decoder) : Contract ClientState ClientAnswer ClientTask where
  admits := clientAdmits decoder
  monitor _ _ _ := True
  rely _ _ := True
  invariant state _ := SessionDigits state

theorem session_sound (decoder : Decoder) (me : ℕ) :
    (clientFrame keepsSessionDigits fun _ => True).Sound (sessionContract decoder) me
      fun state _ => SessionDigits state where
  stable _ := trivial
  kept holds := holds
  called _ holds _ := ⟨trivial, holds⟩
  issued holds _ := ⟨trivial, holds⟩
  answered _ _ holds := ⟨trivial, holds⟩
  resumed _ _ _ kept := kept
  stored holds keeps := ⟨trivial, keeps holds⟩

theorem sessionContract_proved (sha256 : Bytes → Bytes) (decoder : Decoder) :
    (sessionContract decoder).Proved (clientSemantics sha256 decoder) {} where
  sameAnswers := rfl
  relyRefl _ := trivial
  relyTrans _ _ _ _ _ := trivial
  initially := nofun
  starts state trace me task kept _ _ := by
    have covered : Keeps keepsSessionDigits (task.program sha256) :=
      keeps_task keepsSessionDigits_of_store sha256 (fun _ _ => id) task
    exact ⟨trivial, Frame.wp_of_holds (session_sound decoder me) (covered state trivial) kept⟩
  disturbed state state' trace kept disturbed := by
    obtain ⟨destroyed, writableEnded, rfl⟩ := disturbed
    exact ⟨trivial, kept⟩

/-- An initialised connection has a session id of eight digits. -/
theorem exists_sessionId {sha256 : Bytes → Bytes} {decoder : Decoder}
    {system : System ClientState ClientAnswer Thrown Unit ClientTask}
    (reached : Reachable (clientSemantics sha256 decoder) {} system)
    (initialized : system.state.stratumInitialized = true) :
    ∃ sessionId, system.state.extraNonceAndSessionId = some sessionId ∧ HexDigits 8 sessionId := by
  have connected := ((connectionContract_proved sha256 decoder).reachable reached).1
  have digits := ((sessionContract_proved sha256 decoder).reachable reached).1
  have subscribed := (connected.core.ready initialized).1
  obtain ⟨sessionId, stored⟩ := Option.isSome_iff_exists.mp (connected.core.subscribed subscribed).1
  exact ⟨sessionId, stored, digits sessionId stored⟩

end Session

section Runs

variable (outcomes : SubmitOutcomes) {state : ClientState} (history : ClientHistory)

/-- The submission reaches the lookup of its job and does not find it. -/
def SubmitOutcomes.JobMissing (outcomes : SubmitOutcomes) (state : ClientState) : Prop :=
  state.clientAuthorization.isSome ∧ outcomes.EntityReady state ∧ outcomes.job = none

/-- An unknown job is answered with its error. -/
theorem run_handleMiningSubmission_of_missing (sha256 : Bytes → Bytes) (submission : MiningSubmitMessage)
    (opened : state.Initialized) (missing : outcomes.JobMissing state) :
    ∃ after final, (handleMiningSubmission sha256 submission).run outcomes.environment state history =
        ⟨.ok false, after, final⟩ ∧ SameConnection state after ∧
      written final = .error submission.id .jobNotFound "Job not found" [] :: written history ∧
      proofCalls final = proofCalls history := by
  obtain ⟨authorized, ready, absent⟩ := missing
  obtain ⟨result, after, middle, awaited, same, lines, calls, _, readyIff⟩ :=
    run_awaitEntity outcomes (.called (.assert .clientAuthorization true) () :: history) state
  obtain rfl : result = .ok () := readyIff.mpr ready
  unfold handleMiningSubmission
  simp only [Program.bind_eq, Program.load, Program.bind, Program.run, Program.run_bind, run_assert,
    authorized, if_true, awaited, Program.perform, SubmitOutcomes.environment, absent, run_client_joined,
    run_write outcomes _ (same.initialized opened)]
  refine ⟨after, _, rfl, same, ?_, ?_⟩
  · simp [ClientEvent.line?, lines]
  · simp [ClientEvent.submission?, calls]

/-- A payout throws without a line when it has no proof to pass on. -/
theorem run_payMiner_of_none {submission : MiningSubmitMessage} {extraData : Bytes} {version : Number}
    (nothing : outcomes.proofOf state submission extraData version = none) :
    ∃ thrown final, (payMiner submission extraData version).run outcomes.environment state history =
      ⟨.error thrown, state, final⟩ ∧ written final = written history := by
  unfold SubmitOutcomes.proofOf at nothing
  unfold payMiner
  simp only [Program.bind_eq, Program.perform, Program.bind, Program.run, Program.run_bind, run_assert,
    SubmitOutcomes.environment]
  cases fee : validFee outcomes.fee with
  | false => exact ⟨_, _, rfl, by simp [ClientEvent.line?]⟩
  | true =>
      rw [fee, if_pos rfl, Option.map_eq_none_iff] at nothing
      simp only [if_true, Program.load, Program.run, nothing]
      exact ⟨_, _, rfl, by simp [ClientEvent.line?]⟩

/-- A share inside the mask is passed on, or its payout throws without a line. -/
theorem run_submitShare_of_known (sha256 : Bytes → Bytes) {configuration : ConfigurationMessage}
    {submission : MiningSubmitMessage} (template : JobTemplate) (opened : state.Initialized)
    (configured : state.clientConfiguration = some configuration)
    (rolling : configuration.versionRolling = true) (masked : hasValue submission.versionMask = true)
    (contained : ¬ MaskExceeded configuration submission) (before : ClientHistory)
    (lines : written before = written history) :
    ∃ result final, (submitShare sha256 submission template).run outcomes.environment state before =
        ⟨result, state, final⟩ ∧
      ((∃ share, share ∈ proofCalls final) ∨
        ∃ thrown, result = .error thrown ∧ written final = written history) := by
  unfold submitShare
  simp only [Program.bind_eq, Program.load, Program.bind, Program.run, Program.run_bind,
    run_rollVersion_of_contained outcomes _ _ configured rolling masked contained]
  have unchanged : written (.called (.assert .versionMask true) () :: before) = written history := by
    simp [ClientEvent.line?, lines]
  cases share : outcomes.proofOf state submission
      (doubleSHA256 sha256 (Bytes.ofHex
        (extraDataText template.block state.extraNonceAndSessionId submission.extraNonce2)))
      (Number.or (.ofNat template.block.version) (parseHex submission.versionMask.text)) with
  | none =>
      obtain ⟨thrown, final, ran, quiet⟩ := run_payMiner_of_none outcomes
        (.called (.assert .versionMask true) () :: before) share
      exact ⟨_, _, ran, .inr ⟨thrown, rfl, quiet.trans unchanged⟩⟩
  | some share' =>
      obtain ⟨result, final, ran, _, calls⟩ := run_payMiner outcomes history submission
        (doubleSHA256 sha256 (Bytes.ofHex
          (extraDataText template.block state.extraNonceAndSessionId submission.extraNonce2)))
        (Number.or (.ofNat template.block.version) (parseHex submission.versionMask.text)) opened
        (.called (.assert .versionMask true) () :: before) unchanged
      rw [share] at calls
      exact ⟨_, _, ran, .inl ⟨share', by simp [calls]⟩⟩

/-- The submission of a known job passes a share on, or it throws without a line. -/
theorem run_handleMiningSubmission_of_known (sha256 : Bytes → Bytes) {submission : MiningSubmitMessage}
    (masked : hasValue submission.versionMask = true)
    (gate : state.clientConfiguration.map ConfigurationMessage.versionRolling = some true)
    (opened : state.Initialized) (known : ¬ outcomes.JobMissing state)
    (contained : ¬ outcomes.MaskRefused state submission) :
    ∃ result after final,
      (handleMiningSubmission sha256 submission).run outcomes.environment state history =
        ⟨result, after, final⟩ ∧ SameConnection state after ∧
      ((∃ share, share ∈ proofCalls final) ∨
        ∃ thrown, result = .error thrown ∧ written final = written history) := by
  obtain ⟨configuration, configured, rolling⟩ := exists_rolling_configuration gate
  unfold handleMiningSubmission
  simp only [Program.bind_eq, Program.load, Program.bind, Program.run, Program.run_bind, run_assert]
  cases authorized : state.clientAuthorization.isSome with
  | false => exact ⟨_, _, _, rfl, rfl, .inr ⟨_, rfl, by simp [ClientEvent.line?]⟩⟩
  | true =>
      obtain ⟨result, after, middle, awaited, same, lines, _, _, readyIff⟩ :=
        run_awaitEntity outcomes (.called (.assert .clientAuthorization true) () :: history) state
      have quiet : written middle = written history := by
        simpa [ClientEvent.line?] using lines
      simp only [if_true, awaited]
      cases result with
      | error thrown => exact ⟨_, _, _, rfl, same, .inr ⟨thrown, rfl, quiet⟩⟩
      | ok done =>
          have ready := readyIff.mp rfl
          simp only [Program.perform, Program.bind, Program.run, SubmitOutcomes.environment]
          cases found : outcomes.job with
          | none => exact absurd ⟨authorized, ready, found⟩ known
          | some job =>
              simp only [Program.run, Program.run_bind, run_assert, SubmitOutcomes.environment]
              cases stored : outcomes.jobTemplate with
              | none => exact ⟨_, _, _, rfl, same, .inr ⟨_, rfl, by simp [ClientEvent.line?, quiet]⟩⟩
              | some entry =>
                  cases entry with
                  | inherited =>
                      exact ⟨_, _, _, rfl, same, .inr ⟨_, rfl, by simp [ClientEvent.line?, quiet]⟩⟩
                  | own template =>
                      have inside : ¬ MaskExceeded configuration submission := fun exceeded =>
                        contained ⟨⟨authorized, ready, by simp [found], template, stored⟩,
                          configuration, configured, exceeded⟩
                      simp only [Option.isSome_some, if_true]
                      obtain ⟨result, final, ran, outcome⟩ := run_submitShare_of_known outcomes history sha256
                        template (same.initialized opened) (same.configuration.trans configured) rolling
                        masked inside (.called (.assert .jobTemplate true) () ::
                          .called (.getJobTemplateById (jobTemplateIdOf job)) (some (.own template)) ::
                            .called (.getJobById submission.jobId) (some job) :: middle)
                        (by simp [ClientEvent.line?, quiet])
                      exact ⟨result, after, final, ran, same, outcome⟩

end Runs

/-- The history of the handler of one submit. -/
def submitHistory (sha256 : Bytes → Bytes) (outcomes : SubmitOutcomes) (state : ClientState)
    (fields : Fields) : ClientHistory :=
  ((handleMessage sha256 (some (.object fields))).run outcomes.environment state []).history

section Histories

variable (sha256 : Bytes → Bytes) (outcomes : SubmitOutcomes) {state : ClientState} {fields : Fields}
  {submission : MiningSubmitMessage}

/-- A submit before the initialisation ends the socket. -/
theorem submitHistory_of_uninitialized
    (submit : RequestMethod.ofValue (fields.lookup "method") = some .submit)
    (early : state.stratumInitialized = false) :
    written (submitHistory sha256 outcomes state fields) = [] ∧
      proofCalls (submitHistory sha256 outcomes state fields) = [] := by
  have method : Value.field (some (.object fields)) "method" = .ok (fields.lookup "method") := rfl
  unfold submitHistory handleMessage dispatch endSocket
  simp only [Program.bind_eq, method, Program.ofExcept, Program.bind, requestFields, submit,
    Program.load, Program.run, Program.run_bind, early, Bool.not_false, if_true, Program.perform,
    Program.modify, Program.awaiting]
  exact ⟨by simp [Program.run, ClientEvent.line?], by simp [Program.run, ClientEvent.submission?]⟩

/-- The handler of the message adds one turn to the handler of its submit. -/
theorem submitHistory_eq (opened : state.Initialized)
    (submit : RequestMethod.ofValue (fields.lookup "method") = some .submit)
    {result : Except Thrown Bool} {after : ClientState} {final : ClientHistory}
    (ran : (handleSubmitMessage sha256 fields).run outcomes.environment state [] = ⟨result, after, final⟩)
    (same : SameConnection state after) :
    written (submitHistory sha256 outcomes state fields) = written final ∧
      proofCalls (submitHistory sha256 outcomes state fields) = proofCalls final := by
  rw [submitHistory, run_handleMessage_of_submit outcomes sha256 opened submit ran same]
  exact ⟨written_clientTurn final, proofCalls_clientTurn final⟩

variable (opened : state.Initialized)
  (submit : RequestMethod.ofValue (fields.lookup "method") = some .submit)
include opened submit

/-- A submit without readable parameters ends the socket as well. -/
theorem submitHistory_of_thrown {thrown : Thrown} (decoded : MiningSubmitMessage.decode fields = .error thrown) :
    written (submitHistory sha256 outcomes state fields) = [] ∧
      proofCalls (submitHistory sha256 outcomes state fields) = [] := by
  have ran : ∃ final, (handleSubmitMessage sha256 fields).run outcomes.environment state [] =
      ⟨.error thrown, state, final⟩ ∧ written final = [] ∧ proofCalls final = [] := by
    unfold handleSubmitMessage
    simp only [Program.bind_eq, Program.run_bind, run_client_joined, run_validateMessage outcomes opened,
      decoded]
    exact ⟨_, rfl, by simp [ClientEvent.line?], by simp [ClientEvent.submission?]⟩
  obtain ⟨final, ran, lines, calls⟩ := ran
  have handled := submitHistory_eq sha256 outcomes opened submit ran rfl
  exact ⟨handled.1.trans lines, handled.2.trans calls⟩

theorem submitHistory_of_invalid {id : Json} {errors : List ValidationError}
    (decoded : MiningSubmitMessage.decode fields = .ok (.invalid id errors)) :
    written (submitHistory sha256 outcomes state fields) =
        [.error id .otherUnknown "Validation error" (errors.map ValidationError.value)] ∧
      proofCalls (submitHistory sha256 outcomes state fields) = [] := by
  have ran : ∃ final, (handleSubmitMessage sha256 fields).run outcomes.environment state [] =
      ⟨.ok true, state, final⟩ ∧ written final =
        [.error id .otherUnknown "Validation error" (errors.map ValidationError.value)] ∧
      proofCalls final = [] := by
    unfold handleSubmitMessage
    simp only [Program.bind_eq, Program.run_bind, run_client_joined, run_validateMessage outcomes opened,
      decoded]
    exact ⟨_, rfl, by simp [ClientEvent.line?], by simp [ClientEvent.submission?]⟩
  obtain ⟨final, ran, lines, calls⟩ := ran
  have handled := submitHistory_eq sha256 outcomes opened submit ran rfl
  exact ⟨handled.1.trans lines, handled.2.trans calls⟩

/-- A refused mask is answered twice. -/
theorem submitHistory_of_refused (refused : outcomes.RefusesMask state fields) :
    (written (submitHistory sha256 outcomes state fields)).length = 2 := by
  obtain ⟨result, after, final, ran, same, _, lines, _⟩ :=
    run_handleSubmitMessage_of_refused outcomes sha256 opened refused
  rw [(submitHistory_eq sha256 outcomes opened submit ran same).1, lines]
  rfl

variable (decoded : MiningSubmitMessage.decode fields = .ok (.valid submission))
include decoded

/-- A valid submit is answered as a forbidden mask when no version rolling is negotiated. -/
theorem submitHistory_of_ungated
    (ungated : state.clientConfiguration.map ConfigurationMessage.versionRolling ≠ some true) :
    written (submitHistory sha256 outcomes state fields) =
        [.error submission.id .otherUnknown "Version mask is not allowed" []] ∧
      proofCalls (submitHistory sha256 outcomes state fields) = [] := by
  have answered : ∀ history, outcomes.environment history (.validateSubmit fields) =
      .ok (.valid submission) := fun _ => decoded
  have ran := @run_handleSubmitMessage_of_valid outcomes.environment state fields submission sha256 answered
    (MiningSubmitMessage.decode_valid decoded).2
  rw [if_neg ungated, Program.run_bind, run_client_joined, run_write outcomes _ opened] at ran
  have handled := submitHistory_eq sha256 outcomes opened submit ran rfl
  refine ⟨handled.1.trans ?_, handled.2.trans ?_⟩
  · simp [validatedHistory, ClientEvent.line?]
  · simp [validatedHistory, ClientEvent.submission?]

/-- A submit that passes the gate runs its submission. Only an accepted one writes another line. -/
theorem submitHistory_of_gated
    (gate : state.clientConfiguration.map ConfigurationMessage.versionRolling = some true)
    {result : Except Thrown Bool} {after : ClientState} {final : ClientHistory}
    (ran : (handleMiningSubmission sha256 submission).run outcomes.environment state
      (validatedHistory fields submission) = ⟨result, after, final⟩) (same : SameConnection state after) :
    proofCalls (submitHistory sha256 outcomes state fields) = proofCalls final ∧
      (result ≠ .ok true → written (submitHistory sha256 outcomes state fields) = written final) := by
  have answered : ∀ history, outcomes.environment history (.validateSubmit fields) =
      .ok (.valid submission) := fun _ => decoded
  have handles := @run_handleSubmitMessage_of_valid outcomes.environment state fields submission sha256 answered
    (MiningSubmitMessage.decode_valid decoded).2
  rw [if_pos gate, Program.run_bind, run_client_joined, ran] at handles
  cases result with
  | error thrown =>
      have handled := submitHistory_eq sha256 outcomes opened submit handles same
      exact ⟨handled.2.trans (proofCalls_clientTurn final),
        fun _ => handled.1.trans (written_clientTurn final)⟩
  | ok success =>
      cases success with
      | false =>
          have handled := submitHistory_eq sha256 outcomes opened submit handles same
          exact ⟨handled.2.trans (proofCalls_clientTurn final),
            fun _ => handled.1.trans (written_clientTurn final)⟩
      | true =>
          simp only [Bool.not_true, Bool.false_eq_true, if_false, run_client_joined,
            run_write outcomes _ (same.initialized opened)] at handles
          have handled := submitHistory_eq sha256 outcomes opened submit handles same
          refine ⟨handled.2.trans ?_, fun unpaid => absurd rfl unpaid⟩
          simp [ClientEvent.submission?]

theorem submitHistory_of_missing
    (gate : state.clientConfiguration.map ConfigurationMessage.versionRolling = some true)
    (missing : outcomes.JobMissing state) :
    written (submitHistory sha256 outcomes state fields) =
        [.error submission.id .jobNotFound "Job not found" []] ∧
      proofCalls (submitHistory sha256 outcomes state fields) = [] := by
  obtain ⟨after, final, ran, same, lines, calls⟩ := run_handleMiningSubmission_of_missing outcomes
    (validatedHistory fields submission) sha256 submission opened missing
  have handled := submitHistory_of_gated sha256 outcomes opened submit decoded gate ran same
  refine ⟨(handled.2 nofun).trans (lines.trans ?_), handled.1.trans (calls.trans ?_)⟩
  · simp [validatedHistory, ClientEvent.line?]
  · simp [validatedHistory, ClientEvent.submission?]

theorem submitHistory_of_known
    (gate : state.clientConfiguration.map ConfigurationMessage.versionRolling = some true)
    (known : ¬ outcomes.JobMissing state) (contained : ¬ outcomes.MaskRefused state submission) :
    (∃ share, share ∈ proofCalls (submitHistory sha256 outcomes state fields)) ∨
      written (submitHistory sha256 outcomes state fields) = [] := by
  obtain ⟨result, after, final, ran, same, outcome⟩ := run_handleMiningSubmission_of_known outcomes
    (validatedHistory fields submission) sha256 (MiningSubmitMessage.decode_valid decoded).2 gate opened
    known contained
  have handled := submitHistory_of_gated sha256 outcomes opened submit decoded gate ran same
  rcases outcome with ⟨share, passed⟩ | ⟨thrown, rfl, lines⟩
  · refine .inl ⟨share, ?_⟩
    rw [handled.1]
    exact passed
  · refine .inr ((handled.2 nofun).trans (lines.trans ?_))
    simp [validatedHistory, ClientEvent.line?]

/-- Each share that is passed on is the share of a stored template. -/
theorem exists_template_of_share
    {share : Submission} (passed : share ∈ proofCalls (submitHistory sha256 outcomes state fields)) :
    ∃ template configuration, outcomes.jobTemplate = some (.own template) ∧
      state.clientConfiguration = some configuration ∧ ¬ MaskExceeded configuration submission ∧
      outcomes.shareOf sha256 state submission template = some share := by
  by_cases gate : state.clientConfiguration.map ConfigurationMessage.versionRolling = some true
  · by_cases refused : outcomes.RefusesMask state fields
    · obtain ⟨result, after, final, ran, same, _, _, calls⟩ :=
        run_handleSubmitMessage_of_refused outcomes sha256 opened refused
      have handled := submitHistory_eq sha256 outcomes opened submit ran same
      rw [handled.2, calls] at passed
      cases passed
    · obtain ⟨result, after, final, ran, same, _, forwards⟩ :=
        run_handleSubmitMessage_of_not_refused outcomes sha256 opened refused
      have handled := submitHistory_eq sha256 outcomes opened submit ran same
      rw [handled.2] at passed
      obtain ⟨configuration, configured, _⟩ := exists_rolling_configuration gate
      cases forwards submission decoded gate with
      | held unready calls =>
          rw [calls] at passed
          cases passed
      | passed template ready stored calls =>
          rw [calls, proofCalls_nil, List.append_nil, Option.mem_toList] at passed
          have inside : ¬ MaskExceeded configuration submission := fun exceeded =>
            refused ⟨submission, decoded, gate, ready, configuration, configured, exceeded⟩
          exact ⟨template, configuration, stored, configured, inside, passed⟩
  · rw [(submitHistory_of_ungated sha256 outcomes opened submit decoded gate).2] at passed
    cases passed

end Histories

/-- The fields of a valid submit are base-16 texts of their documented sizes. -/
structure ExactFields (fields : Fields) (message : MiningSubmitMessage) : Prop where
  decoded : MiningSubmitMessage.decode fields = .ok (.valid message)
  extraNonce2 : HexDigits 8 message.extraNonce2
  ntime : HexDigits 8 message.ntime
  nonce : HexDigits 8 message.nonce
  versionBits : ∃ count ≤ 8, HexDigits count message.versionMask.text

/-- A share carries the exact values of its fields, and its extra data is the hash of the session id and
of the second nonce. -/
structure CarriesExactly (sha256 : Bytes → Bytes) (sessionId : String) (template : JobTemplate)
    (message : MiningSubmitMessage) (share : Submission) : Prop where
  extraData : ∃ session extraNonce2 : Bytes, session.length = 4 ∧ session.Denotes sessionId ∧
    extraNonce2.length = 4 ∧ extraNonce2.Denotes message.extraNonce2 ∧
    share.extraData = doubleSHA256 sha256 (session ++ extraNonce2)
  timestamp : share.timestamp = .ofNat (hexNumber message.ntime)
  nonce : share.nonce = .ofNat (hexNumber message.nonce)
  version : share.version =
    Number.or (.ofNat template.block.version) (.ofNat (hexNumber message.versionMask.text))

/-- A submit arrives at a connection that some interleaving of its handlers has reached and whose socket
is open. Every template that the pool stores is built by `getBlockTemplate`. -/
structure IncomingSubmit (sha256 : Bytes → Bytes) (isPublicKey : String → Bool) where
  system : System ClientState ClientAnswer Thrown Unit ClientTask
  reached : Reachable (clientSemantics sha256 (stratumDecoder isPublicKey)) {} system
  opened : system.state.Open
  fields : Fields
  submit : RequestMethod.ofValue (fields.lookup "method") = some .submit
  outcomes : SubmitOutcomes
  built : ∀ template, outcomes.jobTemplate = some (.own template) →
    ∃ publicKey hash milliseconds, template.block = getBlockTemplate publicKey hash milliseconds

namespace IncomingSubmit

variable {sha256 : Bytes → Bytes} {isPublicKey : String → Bool}

def history (incoming : IncomingSubmit sha256 isPublicKey) : ClientHistory :=
  submitHistory sha256 incoming.outcomes incoming.system.state incoming.fields

/-- The shares that the submit passes on to the chain service. -/
def shares (incoming : IncomingSubmit sha256 isPublicKey) : List Submission := proofCalls incoming.history

/-- Only exact fields are passed on, and with their exact values. Any other submit is answered with one
error. -/
def HandlesExactly (incoming : IncomingSubmit sha256 isPublicKey) : Prop :=
  (∀ share ∈ incoming.shares, ∃ message template sessionId, ExactFields incoming.fields message ∧
    incoming.outcomes.jobTemplate = some (.own template) ∧
    incoming.system.state.extraNonceAndSessionId = some sessionId ∧
    CarriesExactly sha256 sessionId template message share) ∧
  ((∃ message, ExactFields incoming.fields message) ∨ ∃ code text data,
    written incoming.history = [.error (messageId incoming.fields) code text data])

/-- The submit fails a check that comes before the lookup of its job, or its job is unknown. -/
def FailsCheck (incoming : IncomingSubmit sha256 isPublicKey) : Prop :=
  incoming.system.state.stratumInitialized = true ∧
    ((∃ id errors, MiningSubmitMessage.decode incoming.fields = .ok (.invalid id errors)) ∨
      ∃ message, MiningSubmitMessage.decode incoming.fields = .ok (.valid message) ∧
        (incoming.system.state.clientConfiguration.map ConfigurationMessage.versionRolling ≠ some true ∨
          incoming.outcomes.JobMissing incoming.system.state))

theorem initialized (incoming : IncomingSubmit sha256 isPublicKey)
    (initialized : incoming.system.state.stratumInitialized = true) :
    incoming.system.state.Initialized := ⟨initialized, incoming.opened.1, incoming.opened.2⟩

/-- The bytes that are hashed to the extra data. -/
def xhashbuf (incoming : IncomingSubmit sha256 isPublicKey) (template : JobTemplate)
    (message : MiningSubmitMessage) : Bytes :=
  Bytes.ofHex (extraDataText template.block incoming.system.state.extraNonceAndSessionId message.extraNonce2)

/-- The hashed bytes are those of the session id and those of the second nonce. -/
theorem xhashbuf_eq (incoming : IncomingSubmit sha256 isPublicKey) {template : JobTemplate}
    (stored : incoming.outcomes.jobTemplate = some (.own template)) {sessionId : String}
    (session : incoming.system.state.extraNonceAndSessionId = some sessionId)
    (digits : HexDigits 8 sessionId) (message : MiningSubmitMessage) :
    incoming.xhashbuf template message = Bytes.ofHex sessionId ++ Bytes.ofHex message.extraNonce2 := by
  obtain ⟨publicKey, hash, milliseconds, built⟩ := incoming.built template stored
  have text : extraDataText template.block incoming.system.state.extraNonceAndSessionId
      message.extraNonce2 = sessionId ++ message.extraNonce2 := by
    rw [extraDataText, built, session]
    simp [getBlockTemplate]
  have bytes : HexDigits (2 * 4) sessionId := digits
  rw [xhashbuf, text, Bytes.ofHex_append _ bytes]

/-- The share of exact fields carries their exact values. -/
theorem carriesExactly (incoming : IncomingSubmit sha256 isPublicKey) {message : MiningSubmitMessage}
    (exact : ExactFields incoming.fields message)
    (initialized : incoming.system.state.stratumInitialized = true) {template : JobTemplate}
    (stored : incoming.outcomes.jobTemplate = some (.own template)) {share : Submission}
    (shared : incoming.outcomes.shareOf sha256 incoming.system.state message template = some share) :
    ∃ sessionId, incoming.system.state.extraNonceAndSessionId = some sessionId ∧
      CarriesExactly sha256 sessionId template message share := by
  obtain ⟨sessionId, session, sessionDigits⟩ := exists_sessionId incoming.reached initialized
  obtain ⟨count, short, bits⟩ := exact.versionBits
  have nonceDigits : HexDigits (2 * 4) message.extraNonce2 := exact.extraNonce2
  have idDigits : HexDigits (2 * 4) sessionId := sessionDigits
  have preimage := incoming.xhashbuf_eq stored session sessionDigits message
  obtain ⟨size, sessionValue⟩ := Bytes.denotes_ofHex idDigits
  obtain ⟨length, nonceValue⟩ := Bytes.denotes_ofHex nonceDigits
  unfold SubmitOutcomes.shareOf SubmitOutcomes.proofOf at shared
  split at shared
  · obtain ⟨authorization, _, rfl⟩ := Option.map_eq_some_iff.mp shared
    refine ⟨sessionId, session, ?_⟩
    constructor
    · refine ⟨_, _, size, sessionValue, length, nonceValue, ?_⟩
      rw [← preimage]
      rfl
    · exact parseHex_of_hexDigits exact.ntime (by omega) (by omega)
    · exact parseHex_of_hexDigits exact.nonce (by omega) (by omega)
    · have word := toInt32_parseHex bits (by omega)
      rw [Number.or, word, Number.or, Number.toInt32_ofNat (hexNumber _)]
  · cases shared

/-- A submit that fails a check is answered with one error and passes nothing on. -/
theorem answered_of_failsCheck {incoming : IncomingSubmit sha256 isPublicKey} (fails : incoming.FailsCheck) :
    (∃ code text data, written incoming.history = [.error (messageId incoming.fields) code text data]) ∧
      incoming.shares = [] := by
  obtain ⟨started, checks⟩ := fails
  have opened := incoming.initialized started
  rcases checks with ⟨id, errors, decoded⟩ | ⟨message, decoded, check⟩
  · obtain ⟨lines, calls⟩ :=
      submitHistory_of_invalid sha256 incoming.outcomes opened incoming.submit decoded
    have sameId : id = messageId incoming.fields := by
      rcases MiningSubmitMessage.decode_ok decoded with ⟨other, equal, _⟩ | ⟨other, equal⟩
      · cases equal
      · exact (Validated.invalid.inj equal).1
    rw [sameId] at lines
    exact ⟨⟨_, _, _, lines⟩, calls⟩
  · have sameId := (MiningSubmitMessage.decode_valid decoded).1
    by_cases gate : incoming.system.state.clientConfiguration.map ConfigurationMessage.versionRolling =
        some true
    · obtain ⟨lines, calls⟩ := submitHistory_of_missing sha256 incoming.outcomes opened incoming.submit
        decoded gate (check.resolve_left fun ungated => ungated gate)
      rw [sameId] at lines
      exact ⟨⟨_, _, _, lines⟩, calls⟩
    · obtain ⟨lines, calls⟩ :=
        submitHistory_of_ungated sha256 incoming.outcomes opened incoming.submit decoded gate
      rw [sameId] at lines
      exact ⟨⟨_, _, _, lines⟩, calls⟩

/-- Exact fields are passed on with their exact values, if at all. -/
theorem carries_of_exact {incoming : IncomingSubmit sha256 isPublicKey} {message : MiningSubmitMessage}
    (exact : ExactFields incoming.fields message) {share : Submission} (passed : share ∈ incoming.shares) :
    ∃ template sessionId configuration, incoming.outcomes.jobTemplate = some (.own template) ∧
      incoming.system.state.extraNonceAndSessionId = some sessionId ∧
      incoming.system.state.clientConfiguration = some configuration ∧
      ¬ MaskExceeded configuration message ∧ CarriesExactly sha256 sessionId template message share := by
  cases started : incoming.system.state.stratumInitialized with
  | false =>
      have quiet := (submitHistory_of_uninitialized sha256 incoming.outcomes incoming.submit started).2
      rw [shares, history, quiet] at passed
      cases passed
  | true =>
      obtain ⟨template, configuration, stored, configured, contained, shared⟩ := exists_template_of_share
        sha256 incoming.outcomes (incoming.initialized started) incoming.submit exact.decoded passed
      obtain ⟨sessionId, session, carries⟩ := incoming.carriesExactly exact started stored shared
      exact ⟨template, sessionId, configuration, stored, session, configured, contained, carries⟩

/-- A submit that is answered with one error and passes nothing on has failed a check. -/
theorem failsCheck_of_answered {incoming : IncomingSubmit sha256 isPublicKey}
    (line : ∃ answer, written incoming.history = [answer]) (nothing : ∀ share, share ∉ incoming.shares) :
    incoming.FailsCheck := by
  obtain ⟨answer, line⟩ := line
  have answered : written incoming.history ≠ [] := by simp [line]
  cases started : incoming.system.state.stratumInitialized with
  | false =>
      exact absurd
        (submitHistory_of_uninitialized sha256 incoming.outcomes incoming.submit started).1 answered
  | true =>
      have opened := incoming.initialized started
      refine ⟨started, ?_⟩
      cases decoded : MiningSubmitMessage.decode incoming.fields with
      | error thrown =>
          exact absurd
            (submitHistory_of_thrown sha256 incoming.outcomes opened incoming.submit decoded).1 answered
      | ok validated =>
          cases validated with
          | invalid id errors => exact .inl ⟨id, errors, rfl⟩
          | valid message =>
              refine .inr ⟨message, rfl, ?_⟩
              by_cases gate : incoming.system.state.clientConfiguration.map
                  ConfigurationMessage.versionRolling = some true
              · right
                by_contra known
                have contained : ¬ incoming.outcomes.RefusesMask incoming.system.state incoming.fields := by
                  intro refused
                  have twice := submitHistory_of_refused sha256 incoming.outcomes opened incoming.submit refused
                  change (written incoming.history).length = 2 at twice
                  rw [line] at twice
                  cases twice
                rcases submitHistory_of_known sha256 incoming.outcomes opened incoming.submit decoded gate
                  known fun masked => contained ⟨message, decoded, gate, masked⟩ with ⟨share, passed⟩ | empty
                · exact nothing share passed
                · exact answered empty
              · exact .inl gate

/-- A submit is handled exactly when its fields are exact or it fails a check before its job is looked
up. -/
theorem handlesExactly_iff (incoming : IncomingSubmit sha256 isPublicKey) :
    incoming.HandlesExactly ↔
      (∃ message, ExactFields incoming.fields message) ∨ incoming.FailsCheck := by
  constructor
  · rintro ⟨passes, answers⟩
    by_cases exact : ∃ message, ExactFields incoming.fields message
    · exact .inl exact
    · obtain ⟨code, text, data, line⟩ := answers.resolve_left exact
      refine .inr (failsCheck_of_answered ⟨_, line⟩ ?_)
      intro share passed
      obtain ⟨message, _, _, fields, _⟩ := passes share passed
      exact exact ⟨message, fields⟩
  · rintro (⟨message, exact⟩ | fails)
    · refine ⟨?_, .inl ⟨message, exact⟩⟩
      intro share passed
      obtain ⟨template, sessionId, _, stored, session, _, _, carries⟩ := carries_of_exact exact passed
      exact ⟨message, template, sessionId, exact, stored, session, carries⟩
    · obtain ⟨line, nothing⟩ := answered_of_failsCheck fails
      refine ⟨?_, .inr line⟩
      rw [nothing]
      exact fun _ member => nomatch member

end IncomingSubmit

/-- Bits of a rolling mask are recovered from the version that they are joined to. -/
theorem and_rolling_of_contained {bits : BitVec 32} (mask : RollingMask)
    (inside : bits &&& ~~~mask.word = 0) : (0x20000000#32 ||| bits) &&& 0x1fffe000#32 = bits := by
  have masked : bits &&& mask.word = bits := by
    calc bits &&& mask.word = (bits &&& mask.word) ||| (bits &&& ~~~mask.word) := by
          rw [inside]
          exact BitVec.or_zero.symm
      _ = bits &&& (mask.word ||| ~~~mask.word) := BitVec.and_or_distrib_left.symm
      _ = bits := by rw [BitVec.or_not_self, BitVec.and_allOnes]
  calc (0x20000000#32 ||| bits) &&& 0x1fffe000#32
      = (0x20000000#32 &&& 0x1fffe000#32) ||| (bits &&& 0x1fffe000#32) := BitVec.and_or_distrib_right
    _ = bits &&& 0x1fffe000#32 := by
        rw [show 0x20000000#32 &&& 0x1fffe000#32 = 0#32 by decide, BitVec.zero_or]
    _ = (bits &&& mask.word) &&& 0x1fffe000#32 := by rw [masked]
    _ = bits &&& mask.word := by rw [BitVec.and_assoc, mask.contained]
    _ = bits := masked

/-- The rolled version of a template determines the version bits. -/
theorem versionBits_injective {firstMask secondMask : RollingMask} {first second : ℕ}
    (firstSmall : first < 2 ^ 32) (secondSmall : second < 2 ^ 32)
    (firstInside : BitVec.ofNat 32 first &&& ~~~firstMask.word = 0)
    (secondInside : BitVec.ofNat 32 second &&& ~~~secondMask.word = 0)
    (same : Number.or (.ofNat 0x20000000) (.ofNat first) =
      Number.or (.ofNat 0x20000000) (.ofNat second)) : first = second := by
  have words : 0x20000000#32 ||| BitVec.ofNat 32 first = 0x20000000#32 ||| BitVec.ofNat 32 second := by
    have joined := congrArg Number.toInt32 same
    rw [Number.or, Number.or, Number.toInt32_ofInt32, Number.toInt32_ofInt32, Number.toInt32_ofNat,
      Number.toInt32_ofNat, Number.toInt32_ofNat] at joined
    exact joined
  have bits : BitVec.ofNat 32 first = BitVec.ofNat 32 second := by
    rw [← and_rolling_of_contained firstMask firstInside, words,
      and_rolling_of_contained secondMask secondInside]
  have numbers := congrArg BitVec.toNat bits
  rw [BitVec.toNat_ofNat, BitVec.toNat_ofNat, Nat.mod_eq_of_lt firstSmall,
    Nat.mod_eq_of_lt secondSmall] at numbers
  exact numbers

/-- Version bits of up to eight digits that pass the mask test are bits of the mask. -/
theorem versionBits_of_contained {configuration : ConfigurationMessage} {message : MiningSubmitMessage}
    (bits : ∃ count ≤ 8, HexDigits count message.versionMask.text)
    (contained : ¬ MaskExceeded configuration message) :
    hexNumber message.versionMask.text < 2 ^ 32 ∧
      BitVec.ofNat 32 (hexNumber message.versionMask.text) &&& ~~~configuration.versionRollingMask.word = 0 := by
  obtain ⟨count, short, digits⟩ := bits
  have small : hexNumber message.versionMask.text < 2 ^ 32 :=
    calc hexNumber message.versionMask.text < 16 ^ count := hexNumber_lt digits
      _ ≤ 16 ^ 8 := Nat.pow_le_pow_right (by norm_num) short
      _ = 2 ^ 32 := by norm_num
  rw [MaskExceeded, toInt32_parseHex digits (by omega), not_not] at contained
  exact ⟨small, contained⟩

/-- The values of the four fields that a proof is made from. -/
def MiningSubmitMessage.values (message : MiningSubmitMessage) : ℕ × ℕ × ℕ × ℕ :=
  (hexNumber message.extraNonce2, hexNumber message.ntime, hexNumber message.nonce,
    hexNumber message.versionMask.text)

namespace IncomingSubmit

variable {sha256 : Bytes → Bytes} {isPublicKey : String → Bool}

/-- Two submits of one session for one job never decode to the same proof unless their values are equal.
-/
def KeepsApart (first second : IncomingSubmit sha256 isPublicKey) : Prop :=
  ∀ firstMessage secondMessage template firstShare secondShare,
    MiningSubmitMessage.decode first.fields = .ok (.valid firstMessage) →
    MiningSubmitMessage.decode second.fields = .ok (.valid secondMessage) →
    first.system.state.extraNonceAndSessionId = second.system.state.extraNonceAndSessionId →
    first.outcomes.jobTemplate = some (.own template) →
    second.outcomes.jobTemplate = some (.own template) →
    firstShare ∈ first.shares → secondShare ∈ second.shares →
    first.xhashbuf template firstMessage = second.xhashbuf template secondMessage →
    firstShare.timestamp = secondShare.timestamp → firstShare.nonce = secondShare.nonce →
    firstShare.version = secondShare.version → firstMessage.values = secondMessage.values

/-- Exact fields with the same session and the same template determine the proof. -/
theorem keepsApart_of_exact {first second : IncomingSubmit sha256 isPublicKey}
    (firstExact : ∃ message, ExactFields first.fields message)
    (secondExact : ∃ message, ExactFields second.fields message) : KeepsApart first second := by
  obtain ⟨firstMessage, firstExact⟩ := firstExact
  obtain ⟨secondMessage, secondExact⟩ := secondExact
  intro firstMessage' secondMessage' template firstShare secondShare firstDecoded secondDecoded sameSession
    firstStored secondStored firstPassed secondPassed sameBytes sameTime sameNonce sameVersion
  obtain rfl : firstMessage = firstMessage' :=
    Validated.valid.inj (Except.ok.inj (firstExact.decoded.symm.trans firstDecoded))
  obtain rfl : secondMessage = secondMessage' :=
    Validated.valid.inj (Except.ok.inj (secondExact.decoded.symm.trans secondDecoded))
  obtain ⟨firstTemplate, sessionId, firstConfiguration, firstStored', firstSession, _, firstContained,
    firstCarries⟩ := carries_of_exact firstExact firstPassed
  obtain ⟨secondTemplate, secondId, secondConfiguration, secondStored', secondSession, _, secondContained,
    secondCarries⟩ := carries_of_exact secondExact secondPassed
  obtain rfl := Entry.own.inj (Option.some.inj (firstStored.symm.trans firstStored'))
  obtain rfl := Entry.own.inj (Option.some.inj (secondStored.symm.trans secondStored'))
  obtain rfl := Option.some.inj (firstSession.symm.trans (sameSession.trans secondSession))
  have version : template.block.version = 0x20000000 := by
    obtain ⟨publicKey, hash, milliseconds, built⟩ := first.built template firstStored
    rw [built]
    rfl
  have extraNonces : hexNumber firstMessage.extraNonce2 = hexNumber secondMessage.extraNonce2 := by
    obtain ⟨session, _, size, ⟨digits, _⟩, _⟩ := firstCarries.extraData
    rw [size] at digits
    rw [first.xhashbuf_eq firstStored firstSession digits,
      second.xhashbuf_eq secondStored secondSession digits] at sameBytes
    have sameNonces := List.append_cancel_left sameBytes
    have firstDigits : HexDigits (2 * 4) firstMessage.extraNonce2 := firstExact.extraNonce2
    have secondDigits : HexDigits (2 * 4) secondMessage.extraNonce2 := secondExact.extraNonce2
    rw [← (Bytes.denotes_ofHex firstDigits).2.2, sameNonces, (Bytes.denotes_ofHex secondDigits).2.2]
  have times : hexNumber firstMessage.ntime = hexNumber secondMessage.ntime := by
    apply Number.ofNat_injective
    rw [← firstCarries.timestamp, ← secondCarries.timestamp, sameTime]
  have nonces : hexNumber firstMessage.nonce = hexNumber secondMessage.nonce := by
    apply Number.ofNat_injective
    rw [← firstCarries.nonce, ← secondCarries.nonce, sameNonce]
  have bits : hexNumber firstMessage.versionMask.text = hexNumber secondMessage.versionMask.text := by
    obtain ⟨firstSmall, firstInside⟩ := versionBits_of_contained firstExact.versionBits firstContained
    obtain ⟨secondSmall, secondInside⟩ := versionBits_of_contained secondExact.versionBits secondContained
    rw [firstCarries.version, secondCarries.version, version] at sameVersion
    exact versionBits_injective firstSmall secondSmall firstInside secondInside sameVersion
  rw [MiningSubmitMessage.values, extraNonces, times, nonces, bits]
  rfl

end IncomingSubmit

open IncomingSubmit in
/-- Two submits are handled exactly and kept apart if and only if each has exact fields or fails a check
before its job is looked up. -/
theorem submits_exact_iff {sha256 : Bytes → Bytes} {isPublicKey : String → Bool}
    (first second : IncomingSubmit sha256 isPublicKey) :
    (first.HandlesExactly ∧ second.HandlesExactly ∧ KeepsApart first second) ↔
      ((∃ message, ExactFields first.fields message) ∨ first.FailsCheck) ∧
        ((∃ message, ExactFields second.fields message) ∨ second.FailsCheck) := by
  rw [handlesExactly_iff, handlesExactly_iff]
  constructor
  · rintro ⟨firstHandled, secondHandled, _⟩
    exact ⟨firstHandled, secondHandled⟩
  · rintro ⟨firstHandled, secondHandled⟩
    refine ⟨firstHandled, secondHandled, ?_⟩
    rcases firstHandled with firstExact | fails
    · rcases secondHandled with secondExact | fails
      · exact keepsApart_of_exact firstExact secondExact
      · have nothing := (answered_of_failsCheck fails).2
        intro _ _ _ _ secondShare _ _ _ _ _ _ passed
        rw [nothing] at passed
        cases passed
    · have nothing := (answered_of_failsCheck fails).2
      intro _ _ _ firstShare _ _ _ _ _ _ passed
      rw [nothing] at passed
      cases passed

/-- A submit with one digit of time and no digit of nonce at an initialised connection. -/
def shortSubmit : IncomingSubmit id (fun _ => true) where
  system := sessionSystem
  reached := sessionSystem_reachable
  opened := by
    constructor
    · decide +kernel
    · decide +kernel
  fields := [("id", .number 7), ("method", .string "mining.submit"),
    ("params", .array [.string "worker1", .string "2", .string "00000000zz", .string "0",
      .string "zz", .string "2000"])]
  submit := rfl
  outcomes := acceptingOutcomes
  built := by
    intro template stored
    obtain rfl := Entry.own.inj (Option.some.inj stored)
    exact ⟨_, _, _, rfl⟩

/-- The malformed fields pass every check, and the chain service receives a nonce that is no number. -/
theorem submit_passes_malformed_fields :
    (shortSubmit.shares.map Submission.nonce = [.nan]) ∧ ¬ shortSubmit.HandlesExactly := by
  have rolling : sessionSystem.state.clientConfiguration.map ConfigurationMessage.versionRolling =
      some true := by decide +kernel
  refine ⟨by decide +kernel, ?_⟩
  rw [IncomingSubmit.handlesExactly_iff]
  rintro (⟨message, exact⟩ | ⟨_, ⟨id, errors, decoded⟩ | ⟨message, _, ungated | missing⟩⟩)
  · obtain rfl := Validated.valid.inj (Except.ok.inj exact.decoded)
    exact absurd exact.ntime (by decide)
  · cases decoded
  · exact ungated rolling
  · cases missing.2.2

end ComptoMiningPool
