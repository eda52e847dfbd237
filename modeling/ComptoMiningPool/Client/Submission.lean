import ComptoMiningPool.Client.StratumV1Client

/-
This file proves which lines answer a submission, and when the success line tells the truth.
-/

namespace ComptoMiningPool

open JavaScript Async

/-- The outcome of every call that the handling of one submission can make. -/
structure SubmitOutcomes where
  now : ℕ
  insertClient : Except Thrown Unit
  creatingEntity : Except Thrown Unit
  job : Option (Entry MiningJob)
  jobTemplate : Option (Entry JobTemplate)
  fee : Number
  submitProof : Except Thrown ProofReply

abbrev ClientHistory := History ClientAnswer ClientTask

/-- Every write succeeds. The decoder of the pool validates the message. -/
def SubmitOutcomes.environment (outcomes : SubmitOutcomes) (_ : ClientHistory) :
    (call : ClientCall) → ClientAnswer call
  | .validateSubscription fields => SubscriptionMessage.decode fields
  | .validateConfiguration fields => ConfigurationMessage.decode fields
  | .validateAuthorization fields => AuthorizationMessage.decode (fun _ => true) fields
  | .validateSubmit fields => MiningSubmitMessage.decode fields
  | .writeSocket _ => .ok ()
  | .now => outcomes.now
  | .randomBytes => 0
  | .configText _ default => default
  | .configNumber _ _ => outcomes.fee
  | .insertClient _ => outcomes.insertClient
  | .deleteClient _ => .ok ()
  | .creatingEntity => outcomes.creatingEntity
  | .getJobById _ => outcomes.job
  | .getJobTemplateById _ => outcomes.jobTemplate
  | .addJob template => MiningJob.ofTemplate "" template
  | .submitProof _ => outcomes.submitProof
  | .endSocket => ()
  | .destroySocket => ()
  | .startDestroy => ()
  | .subscribeNewMiningJob => ()
  | .unsubscribe => ()
  | .assert _ _ => ()
  | .initializing => ()
  | .authorized _ => ()
  | .turn => ()

namespace ClientEvent

def line? : ClientEvent → Option Line
  | .issued (.writeSocket line) => some line
  | _ => none

def submission? : ClientEvent → Option Submission
  | .issued (.submitProof submission) => some submission
  | _ => none

/-- The chain service has minted and paid for the submission. -/
def accepts : ClientEvent → Prop
  | .answered (.submitProof _) (.ok proofReply) => proofReply.reply = .result true
  | _ => False

end ClientEvent

/-- The lines that the socket received, newest first. -/
def written (history : ClientHistory) : List Line := history.filterMap ClientEvent.line?

def accepted (history : ClientHistory) : Prop := ∃ event ∈ history, ClientEvent.accepts event

/-- The submissions that the chain service received, newest first. -/
def proofCalls (history : ClientHistory) : List Submission := history.filterMap ClientEvent.submission?

section Observations

variable (event : ClientEvent) (history : ClientHistory)

@[simp] theorem written_nil : written [] = [] := rfl

@[simp] theorem written_cons :
    written (event :: history) = (ClientEvent.line? event).toList ++ written history := by
  unfold written
  rw [List.filterMap_cons]
  cases ClientEvent.line? event <;> rfl

@[simp] theorem proofCalls_nil : proofCalls [] = [] := rfl

@[simp] theorem proofCalls_cons :
    proofCalls (event :: history) = (ClientEvent.submission? event).toList ++ proofCalls history := by
  unfold proofCalls
  rw [List.filterMap_cons]
  cases ClientEvent.submission? event <;> rfl

@[simp] theorem accepted_nil_iff : accepted [] ↔ False := by
  simp [accepted]

@[simp] theorem accepted_cons_iff :
    accepted (event :: history) ↔ ClientEvent.accepts event ∨ accepted history := by
  simp [accepted]

end Observations

/-- The microtask after an asynchronous call leaves two events. -/
def clientTurn (history : ClientHistory) : ClientHistory := .answered .turn () :: .issued .turn :: history

@[simp] theorem written_clientTurn (history : ClientHistory) :
    written (clientTurn history) = written history := by
  simp [clientTurn, ClientEvent.line?]

@[simp] theorem proofCalls_clientTurn (history : ClientHistory) :
    proofCalls (clientTurn history) = proofCalls history := by
  simp [clientTurn, ClientEvent.submission?]

@[simp] theorem accepted_clientTurn (history : ClientHistory) :
    accepted (clientTurn history) ↔ accepted history := by
  simp [clientTurn, ClientEvent.accepts]

/-- A connection in the stratum phase with a socket that takes writes. -/
structure ClientState.Initialized (state : ClientState) : Prop where
  initialized : state.stratumInitialized = true
  undestroyed : state.destroyed = false
  writable : state.writableEnded = false

/-- A submission changes the entity and its promise only. -/
def SameConnection (before after : ClientState) : Prop :=
  after = { before with entity := after.entity, creatingEntity := after.creatingEntity }

section Runs

variable (outcomes : SubmitOutcomes) {state : ClientState} (history : ClientHistory)

theorem run_client_joined {V : Type} (program : ClientProgram V) (state : ClientState) :
    (program.joined ClientCall.turn).run outcomes.environment state history =
      let inner := program.run outcomes.environment state history
      ⟨inner.result, inner.state, clientTurn inner.history⟩ := by
  rw [Program.run_joined]
  rfl

/-- A write on an open socket hands over its line and returns `true`. -/
theorem run_write (opened : state.Initialized) (line : Line) :
    (write line).run outcomes.environment state history = ⟨.ok true, state,
      .answered (.writeSocket line) (.ok ()) :: .issued (.writeSocket line) :: history⟩ := by
  unfold write
  rw [Program.run_attempt]
  simp [Program.load, Program.bind, Program.run, opened.undestroyed, opened.writable, Program.awaiting,
    SubmitOutcomes.environment, Program.run_bind]

theorem run_assert (asserted : Asserted) (condition : Bool) (message : String) (state : ClientState) :
    (assert asserted condition message).run outcomes.environment state history =
      ⟨if condition then .ok () else .error (.error message), state,
        .called (.assert asserted condition) () :: history⟩ := by
  cases condition <;> rfl

/-- The entity is there, or its creation succeeds. -/
def SubmitOutcomes.EntityReady (outcomes : SubmitOutcomes) (state : ClientState) : Prop :=
  state.entity = true ∨
    match state.creatingEntity with
    | none => state.extraNonceAndSessionId.isSome ∧ state.clientAuthorization.isSome ∧
        state.clientSubscription.isSome ∧ outcomes.insertClient = .ok ()
    | some _ => outcomes.creatingEntity = .ok ()

/-- The executor needs the three parts of the connection and a successful insertion. -/
theorem run_createEntity (state : ClientState) :
    ∃ result after final, createEntity.run outcomes.environment state history = ⟨result, after, final⟩ ∧
      SameConnection state after ∧ written final = written history ∧
      proofCalls final = proofCalls history ∧ (accepted final ↔ accepted history) ∧
      (result = .ok () ↔ state.extraNonceAndSessionId.isSome ∧ state.clientAuthorization.isSome ∧
        state.clientSubscription.isSome ∧ outcomes.insertClient = .ok ()) := by
  unfold createEntity
  simp only [Program.bind_eq, Program.load, Program.bind, Program.run, Program.run_bind, run_assert]
  cases session : state.extraNonceAndSessionId.isSome with
  | false =>
      exact ⟨_, _, _, rfl, rfl, by simp [ClientEvent.line?], by simp [ClientEvent.submission?],
        by simp [ClientEvent.accepts], by simp⟩
  | true =>
      cases authorized : state.clientAuthorization.isSome with
      | false =>
          exact ⟨_, _, _, rfl, rfl, by simp [ClientEvent.line?], by simp [ClientEvent.submission?],
            by simp [ClientEvent.accepts], by simp⟩
      | true =>
          cases subscribed : state.clientSubscription.isSome with
          | false =>
              exact ⟨_, _, _, rfl, rfl, by simp [ClientEvent.line?], by simp [ClientEvent.submission?],
                by simp [ClientEvent.accepts], by simp⟩
          | true =>
              simp only [if_true, Program.perform, Program.awaiting, Program.run,
                SubmitOutcomes.environment, Program.run_ofExcept, Program.modify]
              cases inserted : outcomes.insertClient with
              | error thrown =>
                  exact ⟨_, _, _, rfl, rfl, by simp [ClientEvent.line?], by simp [ClientEvent.submission?],
                    by simp [ClientEvent.accepts], by simp⟩
              | ok done =>
                  exact ⟨_, _, _, rfl, rfl, by simp [ClientEvent.line?], by simp [ClientEvent.submission?],
                    by simp [ClientEvent.accepts], by simp⟩

/-- The entity is created without a line and without a payout. -/
theorem run_awaitEntity (state : ClientState) :
    ∃ result after final, awaitEntity.run outcomes.environment state history = ⟨result, after, final⟩ ∧
      SameConnection state after ∧ written final = written history ∧
      proofCalls final = proofCalls history ∧ (accepted final ↔ accepted history) ∧
      (result = .ok () ↔ outcomes.EntityReady state) := by
  unfold awaitEntity SubmitOutcomes.EntityReady
  simp only [Program.bind_eq, Program.load, Program.bind, Program.run]
  cases entity : state.entity with
  | true => exact ⟨_, _, _, rfl, rfl, rfl, rfl, Iff.rfl, by simp⟩
  | false =>
      cases creating : state.creatingEntity with
      | some promise =>
          simp only [Bool.false_eq_true, if_false, Program.awaiting, Program.bind, Program.run,
            Program.run_ofExcept, SubmitOutcomes.environment]
          exact ⟨_, _, _, rfl, rfl, by simp [ClientEvent.line?], by simp [ClientEvent.submission?],
            by simp [ClientEvent.accepts], by simp⟩
      | none =>
          obtain ⟨result, after, final, ran, same, lines, calls, accepts, ready⟩ :=
            run_createEntity outcomes history { state with creatingEntity := some .pending }
          simp only [Bool.false_eq_true, if_false, Program.modify, Program.bind, Program.run,
            Program.run_bind, Program.run_attempt, ran]
          have kept : ∀ result, SameConnection state { after with creatingEntity := result } := by
            intro promise
            unfold SameConnection at same ⊢
            rw [same]
          cases result with
          | error thrown =>
              refine ⟨.error thrown, _, clientTurn final, rfl, kept _, ?_, ?_, ?_, ?_⟩
              · rw [written_clientTurn, lines]
              · rw [proofCalls_clientTurn, calls]
              · rw [accepted_clientTurn, accepts]
              · simpa using ready
          | ok done =>
              refine ⟨.ok (), _, clientTurn final, rfl, kept _, ?_, ?_, ?_, ?_⟩
              · rw [written_clientTurn, lines]
              · rw [proofCalls_clientTurn, calls]
              · rw [accepted_clientTurn, accepts]
              · simpa using ready

/-- The rolled bits leave the negotiated mask. -/
def MaskExceeded (configuration : ConfigurationMessage) (submission : MiningSubmitMessage) : Prop :=
  (parseHex submission.versionMask.text).toInt32 &&& ~~~configuration.versionRollingMask.word ≠ 0

/-- A mask outside the negotiated bits is answered at once, and the answer counts as a result. -/
theorem run_rollVersion_of_exceeded {configuration : ConfigurationMessage}
    {submission : MiningSubmitMessage} (version : ℕ) (opened : state.Initialized)
    (configured : state.clientConfiguration = some configuration)
    (rolling : configuration.versionRolling = true) (masked : hasValue submission.versionMask = true)
    (exceeded : MaskExceeded configuration submission) :
    ∃ final, (rollVersion submission version).run outcomes.environment state history =
        ⟨.ok (.error true), state, final⟩ ∧
      written final = .error submission.id .otherUnknown "Invalid version mask" [] :: written history ∧
      (accepted final ↔ accepted history) ∧ proofCalls final = proofCalls history := by
  unfold MaskExceeded at exceeded
  unfold rollVersion
  simp only [Program.bind_eq, Program.load, Program.bind, Program.run, configured, rolling, masked,
    if_true, Program.run_bind, run_assert]
  rw [if_pos exceeded]
  simp only [Program.run_bind, run_client_joined, run_write outcomes _ opened]
  refine ⟨_, rfl, ?_, ?_, ?_⟩
  · simp [ClientEvent.line?]
  · simp [ClientEvent.accepts]
  · simp [ClientEvent.submission?]

/-- A mask inside the negotiated bits is joined to the version. -/
theorem run_rollVersion_of_contained {configuration : ConfigurationMessage}
    {submission : MiningSubmitMessage} (version : ℕ)
    (configured : state.clientConfiguration = some configuration)
    (rolling : configuration.versionRolling = true) (masked : hasValue submission.versionMask = true)
    (contained : ¬ MaskExceeded configuration submission) :
    (rollVersion submission version).run outcomes.environment state history =
      ⟨.ok (.ok (Number.or (.ofNat version) (parseHex submission.versionMask.text))), state,
        .called (.assert .versionMask true) () :: history⟩ := by
  unfold MaskExceeded at contained
  unfold rollVersion
  simp only [Program.bind_eq, Program.load, Program.bind, Program.run, configured, rolling, masked,
    if_true, Program.run_bind, run_assert]
  rw [if_neg contained]
  rfl

/-- A decided submission either throws, is answered with an error, or is accepted without a line. -/
inductive Decided (id : Json) (before : ClientHistory) : Except Thrown Bool → ClientHistory → Prop where
  | thrown {final} (error : Thrown) (lines : written final = written before) :
      Decided id before (.error error) final
  | rejected {final} (code : StratumErrorCode) (message : String)
      (lines : written final = .error id code message [] :: written before) :
      Decided id before (.ok false) final
  | accepted {final} (lines : written final = written before) (paid : accepted final) :
      Decided id before (.ok true) final

/-- A rejected submission writes its error and returns `false`. -/
theorem run_reject (opened : state.Initialized) (id : Json) (code : StratumErrorCode) (message : String)
    (before : ClientHistory) {passed : List Submission} (lines : written before = written history)
    (calls : proofCalls before = passed) :
    ∃ result final, Program.run outcomes.environment
        (((write (.error id code message [])).joined ClientCall.turn).bind fun _ => .done false) state
          before = ⟨result, state, final⟩ ∧ Decided id history result final ∧
        proofCalls final = passed := by
  simp only [Program.run_bind, run_client_joined, run_write outcomes _ opened]
  refine ⟨_, _, rfl, .rejected code message ?_, ?_⟩
  · simp [ClientEvent.line?, lines]
  · simp [ClientEvent.submission?, calls]

/-- A valid fee and a stored authorization pass the share on to the chain service. -/
def SubmitOutcomes.proofOf (outcomes : SubmitOutcomes) (state : ClientState)
    (submission : MiningSubmitMessage) (extraData : Bytes) (version : Number) : Option Submission :=
  if validFee outcomes.fee then
    state.clientAuthorization.map fun clientAuthorization => {
      extraData := extraData
      nonce := parseHex submission.nonce
      version := version
      timestamp := parseHex submission.ntime
      recipient := clientAuthorization.address
      fee := outcomes.fee }
  else none

/-- The payout decides the submission by what the chain service replies. -/
theorem run_payMiner (submission : MiningSubmitMessage) (extraData : Bytes) (version : Number)
    (opened : state.Initialized) (before : ClientHistory) (lines : written before = written history) :
    ∃ result final, (payMiner submission extraData version).run outcomes.environment state before =
        ⟨result, state, final⟩ ∧ Decided submission.id history result final ∧
      proofCalls final =
        (outcomes.proofOf state submission extraData version).toList ++ proofCalls before := by
  unfold payMiner SubmitOutcomes.proofOf
  simp only [Program.bind_eq, Program.perform, Program.bind, Program.run, Program.run_bind, run_assert,
    SubmitOutcomes.environment]
  cases validFee outcomes.fee with
  | false =>
      exact ⟨_, _, rfl, .thrown _ (by simp [ClientEvent.line?, lines]),
        by simp [ClientEvent.submission?]⟩
  | true =>
      simp only [if_true, Program.load, Program.run]
      cases state.clientAuthorization with
      | none =>
          exact ⟨_, _, rfl, .thrown _ (by simp [ClientEvent.line?, lines]),
            by simp [ClientEvent.submission?]⟩
      | some authorization =>
          simp only [Program.awaiting, Program.bind, Program.run, Program.run_bind, Program.run_ofExcept,
            SubmitOutcomes.environment]
          cases outcomes.submitProof with
          | error thrown =>
              exact ⟨_, _, rfl, .thrown _ (by simp [ClientEvent.line?, lines]),
                by simp [ClientEvent.submission?]⟩
          | ok proofReply =>
              obtain ⟨reply, decided⟩ := proofReply
              simp only
              cases present : hasValue reply.error? with
              | true =>
                  simp only [if_true]
                  split
                  · apply run_reject outcomes history opened
                    · simp [ClientEvent.line?, lines]
                    · simp [ClientEvent.submission?]
                  · apply run_reject outcomes history opened
                    · simp [ClientEvent.line?, lines]
                    · simp [ClientEvent.submission?]
              | false =>
                  have paid : reply = .result true := by
                    rcases decided with paid | error
                    · exact paid
                    · rw [present] at error
                      cases error
                  refine ⟨_, _, rfl, .accepted ?_ ?_, ?_⟩
                  · simp [ClientEvent.line?, lines]
                  · simp [ClientEvent.accepts, paid]
                  · simp [ClientEvent.submission?]

/-- The submission finds an authorization, an entity, and its stored job. -/
def SubmitOutcomes.ShareReady (outcomes : SubmitOutcomes) (state : ClientState) : Prop :=
  state.clientAuthorization.isSome ∧ outcomes.EntityReady state ∧ outcomes.job.isSome ∧
    ∃ template, outcomes.jobTemplate = some (.own template)

/-- The submission reaches the mask test and fails it. -/
def SubmitOutcomes.MaskRefused (outcomes : SubmitOutcomes) (state : ClientState)
    (submission : MiningSubmitMessage) : Prop :=
  outcomes.ShareReady state ∧
    ∃ configuration, state.clientConfiguration = some configuration ∧ MaskExceeded configuration submission

theorem SameConnection.initialized {before after : ClientState} (same : SameConnection before after)
    (opened : before.Initialized) : after.Initialized := by
  rw [same]
  exact ⟨opened.initialized, opened.undestroyed, opened.writable⟩

theorem SameConnection.configuration {before after : ClientState} (same : SameConnection before after) :
    after.clientConfiguration = before.clientConfiguration := by
  rw [same]

/-- A share outside the mask writes its error and returns what the write returned. -/
theorem run_submitShare_of_exceeded (sha256 : Bytes → Bytes) {configuration : ConfigurationMessage}
    {submission : MiningSubmitMessage} (template : JobTemplate) (opened : state.Initialized)
    (configured : state.clientConfiguration = some configuration)
    (rolling : configuration.versionRolling = true) (masked : hasValue submission.versionMask = true)
    (exceeded : MaskExceeded configuration submission) :
    ∃ final, (submitShare sha256 submission template).run outcomes.environment state history =
        ⟨.ok true, state, final⟩ ∧
      written final = .error submission.id .otherUnknown "Invalid version mask" [] :: written history ∧
      (accepted final ↔ accepted history) ∧ proofCalls final = proofCalls history := by
  obtain ⟨final, ran, kept⟩ := run_rollVersion_of_exceeded outcomes history
    template.block.version opened configured rolling masked exceeded
  unfold submitShare
  simp only [Program.bind_eq, Program.load, Program.bind, Program.run, Program.run_bind, ran]
  exact ⟨final, rfl, kept⟩

/-- The share of a stored template that the connection passes on. -/
def SubmitOutcomes.shareOf (outcomes : SubmitOutcomes) (sha256 : Bytes → Bytes) (state : ClientState)
    (submission : MiningSubmitMessage) (template : JobTemplate) : Option Submission :=
  outcomes.proofOf state submission
    (doubleSHA256 sha256 (Bytes.ofHex
      (extraDataText template.block state.extraNonceAndSessionId submission.extraNonce2)))
    (Number.or (.ofNat template.block.version) (parseHex submission.versionMask.text))

/-- A share inside the mask is decided by its payout. -/
theorem run_submitShare_of_contained (sha256 : Bytes → Bytes) {configuration : ConfigurationMessage}
    {submission : MiningSubmitMessage} (template : JobTemplate) (opened : state.Initialized)
    (configured : state.clientConfiguration = some configuration)
    (rolling : configuration.versionRolling = true) (masked : hasValue submission.versionMask = true)
    (contained : ¬ MaskExceeded configuration submission) (before : ClientHistory)
    (lines : written before = written history) :
    ∃ result final, (submitShare sha256 submission template).run outcomes.environment state before =
        ⟨result, state, final⟩ ∧ Decided submission.id history result final ∧
      proofCalls final = (outcomes.shareOf sha256 state submission template).toList ++
        proofCalls before := by
  have paid := run_payMiner outcomes history submission
    (doubleSHA256 sha256 (Bytes.ofHex
      (extraDataText template.block state.extraNonceAndSessionId submission.extraNonce2)))
    (Number.or (.ofNat template.block.version) (parseHex submission.versionMask.text)) opened
    (.called (.assert .versionMask true) () :: before) (by simp [ClientEvent.line?, lines])
  unfold submitShare
  simp only [Program.bind_eq, Program.load, Program.bind, Program.run, Program.run_bind,
    run_rollVersion_of_contained outcomes _ _ configured rolling masked contained]
  rw [proofCalls_cons] at paid
  exact paid

/-- The mask test runs on a connection that negotiated version rolling. -/
theorem exists_rolling_configuration
    (gate : state.clientConfiguration.map ConfigurationMessage.versionRolling = some true) :
    ∃ configuration, state.clientConfiguration = some configuration ∧
      configuration.versionRolling = true := by
  obtain ⟨configuration, configured, rolling⟩ := Option.map_eq_some_iff.mp gate
  exact ⟨configuration, configured, rolling⟩

/-- A refused mask is answered with its error and still returns `true`. -/
theorem run_handleMiningSubmission_of_refused (sha256 : Bytes → Bytes) {submission : MiningSubmitMessage}
    (opened : state.Initialized) (masked : hasValue submission.versionMask = true)
    (gate : state.clientConfiguration.map ConfigurationMessage.versionRolling = some true)
    (refused : outcomes.MaskRefused state submission) :
    ∃ after final, (handleMiningSubmission sha256 submission).run outcomes.environment state history =
        ⟨.ok true, after, final⟩ ∧ SameConnection state after ∧
      written final = .error submission.id .otherUnknown "Invalid version mask" [] :: written history ∧
      (accepted final ↔ accepted history) ∧ proofCalls final = proofCalls history := by
  obtain ⟨⟨authorized, ready, found, template, stored⟩, configuration, configured, exceeded⟩ := refused
  obtain ⟨job, found⟩ := Option.isSome_iff_exists.mp found
  obtain ⟨configuration', configured', rolling⟩ := exists_rolling_configuration gate
  obtain rfl : configuration' = configuration := Option.some.inj (configured'.symm.trans configured)
  obtain ⟨result, after, middle, awaited, same, lines, calls, accepts, readyIff⟩ :=
    run_awaitEntity outcomes (.called (.assert .clientAuthorization true) () :: history) state
  obtain rfl : result = .ok () := readyIff.mpr ready
  unfold handleMiningSubmission
  simp only [Program.bind_eq, Program.load, Program.bind, Program.run, Program.run_bind, run_assert,
    authorized, if_true, awaited, Program.perform, SubmitOutcomes.environment, found, stored,
    Option.isSome_some]
  obtain ⟨final, ran, finalLines, finalAccepts, finalCalls⟩ := run_submitShare_of_exceeded outcomes
    (.called (.assert .jobTemplate true) () ::
      .called (.getJobTemplateById (jobTemplateIdOf job)) (some (.own template)) ::
        .called (.getJobById submission.jobId) (some job) :: middle) sha256 template
    (same.initialized opened) (same.configuration.trans configured) rolling masked exceeded
  refine ⟨after, final, ran, same, ?_, ?_, ?_⟩
  · simpa [ClientEvent.line?, lines] using finalLines
  · simpa [ClientEvent.accepts, accepts] using finalAccepts
  · simpa [ClientEvent.submission?, calls] using finalCalls

/-- A submission is held back, or its share is passed on once. -/
inductive Forwarded (outcomes : SubmitOutcomes) (sha256 : Bytes → Bytes) (state : ClientState)
    (submission : MiningSubmitMessage) (before : ClientHistory) : ClientHistory → Prop where
  | held {final} (unready : ¬ outcomes.ShareReady state) (calls : proofCalls final = proofCalls before) :
      Forwarded outcomes sha256 state submission before final
  | passed {final} (template : JobTemplate) (ready : outcomes.ShareReady state)
      (stored : outcomes.jobTemplate = some (.own template))
      (calls : proofCalls final =
        (outcomes.shareOf sha256 state submission template).toList ++ proofCalls before) :
      Forwarded outcomes sha256 state submission before final

/-- Only the submissions of both histories matter. -/
theorem Forwarded.congr {outcomes : SubmitOutcomes} {sha256 : Bytes → Bytes} {state : ClientState}
    {submission : MiningSubmitMessage} {before before' final final' : ClientHistory}
    (forwarded : Forwarded outcomes sha256 state submission before final)
    (sameBefore : proofCalls before = proofCalls before') (sameFinal : proofCalls final = proofCalls final') :
    Forwarded outcomes sha256 state submission before' final' := by
  cases forwarded with
  | held unready calls =>
      exact .held unready (by rw [← sameFinal, calls, sameBefore])
  | passed template ready stored calls =>
      exact .passed template ready stored (by rw [← sameFinal, calls, sameBefore])

/-- Every other submission is decided once. -/
theorem run_handleMiningSubmission_of_not_refused (sha256 : Bytes → Bytes)
    {submission : MiningSubmitMessage} (opened : state.Initialized)
    (masked : hasValue submission.versionMask = true)
    (gate : state.clientConfiguration.map ConfigurationMessage.versionRolling = some true)
    (contained : ¬ outcomes.MaskRefused state submission) :
    ∃ result after final,
      (handleMiningSubmission sha256 submission).run outcomes.environment state history =
        ⟨result, after, final⟩ ∧ SameConnection state after ∧
      Decided submission.id history result final ∧
      Forwarded outcomes sha256 state submission history final := by
  obtain ⟨configuration, configured, rolling⟩ := exists_rolling_configuration gate
  unfold handleMiningSubmission
  simp only [Program.bind_eq, Program.load, Program.bind, Program.run, Program.run_bind, run_assert]
  cases authorized : state.clientAuthorization.isSome with
  | false =>
      exact ⟨_, _, _, rfl, rfl, .thrown _ (by simp [ClientEvent.line?]),
        .held (by simp [SubmitOutcomes.ShareReady, authorized]) (by simp [ClientEvent.submission?])⟩
  | true =>
      obtain ⟨result, after, middle, awaited, same, lines, calls, _, readyIff⟩ :=
        run_awaitEntity outcomes (.called (.assert .clientAuthorization true) () :: history) state
      have lines' : written middle = written history := by
        simpa [ClientEvent.line?] using lines
      have calls' : proofCalls middle = proofCalls history := by
        simpa [ClientEvent.submission?] using calls
      simp only [if_true, awaited]
      cases result with
      | error thrown =>
          have unready : ¬ outcomes.ShareReady state := fun ready => by
            cases readyIff.mpr ready.2.1
          exact ⟨_, _, _, rfl, same, .thrown _ lines', .held unready calls'⟩
      | ok done =>
          have ready := readyIff.mp rfl
          simp only [Program.perform, Program.bind, Program.run, SubmitOutcomes.environment]
          cases found : outcomes.job with
          | none =>
              obtain ⟨result, final, ran, decided, calls⟩ := run_reject outcomes history
                (same.initialized opened) submission.id .jobNotFound "Job not found"
                (.called (.getJobById submission.jobId) none :: middle)
                (by simp [ClientEvent.line?, lines']) (by simpa [ClientEvent.submission?] using calls')
              exact ⟨result, after, final, ran, same, decided,
                .held (by simp [SubmitOutcomes.ShareReady, found]) calls⟩
          | some job =>
              simp only [Program.run, Program.run_bind, run_assert, SubmitOutcomes.environment]
              cases stored : outcomes.jobTemplate with
              | none =>
                  exact ⟨_, _, _, rfl, same, .thrown _ (by simp [ClientEvent.line?, lines']),
                    .held (by simp [SubmitOutcomes.ShareReady, stored])
                      (by simp [ClientEvent.submission?, calls'])⟩
              | some entry =>
                  cases entry with
                  | inherited =>
                      exact ⟨_, _, _, rfl, same, .thrown _ (by simp [ClientEvent.line?, lines']),
                        .held (by simp [SubmitOutcomes.ShareReady, stored])
                          (by simp [ClientEvent.submission?, calls'])⟩
                  | own template =>
                      have shareReady : outcomes.ShareReady state :=
                        ⟨authorized, ready, by simp [found], template, stored⟩
                      have inside : ¬ MaskExceeded configuration submission := fun exceeded =>
                        contained ⟨shareReady, configuration, configured, exceeded⟩
                      have sameShare : outcomes.shareOf sha256 after submission template =
                          outcomes.shareOf sha256 state submission template := by
                        rw [same]
                        rfl
                      simp only [Option.isSome_some, if_true]
                      obtain ⟨result, final, ran, decided, calls⟩ := run_submitShare_of_contained
                        outcomes history sha256 template (same.initialized opened)
                        (same.configuration.trans configured) rolling masked inside
                        (.called (.assert .jobTemplate true) () ::
                          .called (.getJobTemplateById (jobTemplateIdOf job)) (some (.own template)) ::
                            .called (.getJobById submission.jobId) (some job) :: middle)
                        (by simp [ClientEvent.line?, lines'])
                      refine ⟨result, after, final, ran, same, decided, .passed template shareReady stored ?_⟩
                      simpa [ClientEvent.submission?, calls', sameShare] using calls

/-- The validation of a submission throws, answers with its own error, or passes the message on. -/
theorem run_validateMessage (opened : state.Initialized) (fields : Fields) :
    (validateMessage (validateSubmit fields)).run outcomes.environment state [] =
      let validated : ClientHistory :=
        [.answered (.validateSubmit fields) (MiningSubmitMessage.decode fields),
          .issued (.validateSubmit fields)]
      match MiningSubmitMessage.decode fields with
      | .error thrown => ⟨.error thrown, state, validated⟩
      | .ok (.valid message) => ⟨.ok (.ok message), state, validated⟩
      | .ok (.invalid id errors) =>
          let line := Line.error id .otherUnknown "Validation error" (errors.map ValidationError.value)
          ⟨.ok (.error true), state, clientTurn
            (.answered (.writeSocket line) (.ok ()) :: .issued (.writeSocket line) :: validated)⟩ := by
  unfold validateMessage validateSubmit
  simp only [Program.bind_eq, Program.awaiting, Program.bind, Program.run, Program.run_bind,
    Program.run_ofExcept, SubmitOutcomes.environment]
  cases MiningSubmitMessage.decode fields with
  | error thrown => rfl
  | ok decoded =>
      cases decoded with
      | valid message => rfl
      | invalid id errors =>
          simp only [Program.run_bind, run_client_joined, run_write outcomes _ opened]
          rfl

/-- A submission is refused by its mask after it has passed its validation and the version gate. -/
def SubmitOutcomes.RefusesMask (outcomes : SubmitOutcomes) (state : ClientState) (fields : Fields) :
    Prop :=
  ∃ submission, MiningSubmitMessage.decode fields = .ok (.valid submission) ∧
    state.clientConfiguration.map ConfigurationMessage.versionRolling = some true ∧
    outcomes.MaskRefused state submission

/-- A handled submission throws without a line, or one line answers it. -/
inductive Answered (id : Json) : Except Thrown Bool → ClientHistory → Prop where
  | thrown {final} (error : Thrown) (lines : written final = []) : Answered id (.error error) final
  | errored {final} (success : Bool) (code : StratumErrorCode) (message : String) (data : List Value)
      (lines : written final = [.error id code message data]) : Answered id (.ok success) final
  | succeeded {final} (success : Bool) (lines : written final = [.response id (.bool true)])
      (paid : accepted final) : Answered id (.ok success) final

/-- The success line follows the error line of a refused mask. -/
theorem run_handleSubmitMessage_of_refused (sha256 : Bytes → Bytes) {fields : Fields}
    (opened : state.Initialized) (refused : outcomes.RefusesMask state fields) :
    ∃ result after final, (handleSubmitMessage sha256 fields).run outcomes.environment state [] =
        ⟨.ok result, after, final⟩ ∧ SameConnection state after ∧ ¬ accepted final ∧
      written final = [.response (messageId fields) (.bool true),
        .error (messageId fields) .otherUnknown "Invalid version mask" []] ∧ proofCalls final = [] := by
  obtain ⟨submission, decoded, gate, refused⟩ := refused
  have kept := MiningSubmitMessage.decode_valid decoded
  obtain ⟨after, final, ran, same, lines, accepts, calls⟩ := run_handleMiningSubmission_of_refused outcomes
    (clientTurn [.answered (.validateSubmit fields) (.ok (.valid submission)),
      .issued (.validateSubmit fields)]) sha256 opened kept.2 gate refused
  unfold handleSubmitMessage
  simp only [Program.bind_eq, Program.run_bind, run_client_joined, run_validateMessage outcomes opened,
    decoded, Program.load, Program.bind, Program.run, gate, kept.2, ne_eq, not_true, if_false, ran,
    Bool.not_true, Bool.false_eq_true, run_write outcomes _ (same.initialized opened)]
  refine ⟨_, _, _, rfl, same, ?_, ?_, ?_⟩
  · simp [ClientEvent.accepts, accepts]
  · simp [ClientEvent.line?, lines, MiningSubmitMessage.response, kept.1]
  · simp [ClientEvent.submission?, calls]

/-- One line answers every other submission that does not throw. A valid submission that passes the
version gate is forwarded at most once. -/
theorem run_handleSubmitMessage_of_not_refused (sha256 : Bytes → Bytes) {fields : Fields}
    (opened : state.Initialized) (contained : ¬ outcomes.RefusesMask state fields) :
    ∃ result after final, (handleSubmitMessage sha256 fields).run outcomes.environment state [] =
        ⟨result, after, final⟩ ∧ SameConnection state after ∧
      Answered (messageId fields) result final ∧
      ∀ submission, MiningSubmitMessage.decode fields = .ok (.valid submission) →
        state.clientConfiguration.map ConfigurationMessage.versionRolling = some true →
        Forwarded outcomes sha256 state submission [] final := by
  unfold handleSubmitMessage
  simp only [Program.bind_eq, Program.run_bind, run_client_joined, run_validateMessage outcomes opened]
  cases decoded : MiningSubmitMessage.decode fields with
  | error thrown =>
      exact ⟨_, _, _, rfl, rfl, .thrown _ (by simp [ClientEvent.line?]), fun _ valid => nomatch valid⟩
  | ok validated =>
      rcases MiningSubmitMessage.decode_ok decoded with
        ⟨submission, rfl, sameId, masked⟩ | ⟨errors, rfl⟩
      · simp only [Program.load, Program.bind, Program.run]
        by_cases gate : state.clientConfiguration.map ConfigurationMessage.versionRolling = some true
        · obtain ⟨result, after, final, ran, same, decided, forwarded⟩ :=
            run_handleMiningSubmission_of_not_refused outcomes
              (clientTurn [.answered (.validateSubmit fields) (.ok (.valid submission)),
                .issued (.validateSubmit fields)]) sha256 opened masked gate
              (fun refused => contained ⟨submission, decoded, gate, refused⟩)
          have passes : ∀ later, proofCalls later = proofCalls final → ∀ other : MiningSubmitMessage,
              (Except.ok (.valid submission) : Except Thrown (Validated MiningSubmitMessage)) =
                .ok (.valid other) → Forwarded outcomes sha256 state other [] later := by
            intro later calls other valid
            obtain rfl := Validated.valid.inj (Except.ok.inj valid)
            exact forwarded.congr (by simp [ClientEvent.submission?]) calls.symm
          simp only [gate, masked, ne_eq, not_true, if_false, Program.run_bind, run_client_joined, ran]
          cases decided with
          | thrown error lines =>
              refine ⟨_, _, _, rfl, same, .thrown _ ?_, fun other valid _ => passes _ ?_ other valid⟩
              · simpa [ClientEvent.line?] using lines
              · exact proofCalls_clientTurn final
          | rejected code message lines =>
              refine ⟨_, _, _, rfl, same, .errored _ code message [] ?_,
                fun other valid _ => passes _ ?_ other valid⟩
              · simpa [ClientEvent.line?, sameId] using lines
              · exact proofCalls_clientTurn final
          | accepted lines paid =>
              simp only [Bool.not_true, Bool.false_eq_true, if_false, run_client_joined,
                run_write outcomes _ (same.initialized opened)]
              refine ⟨_, _, _, rfl, same, .succeeded _ ?_ ?_,
                fun other valid _ => passes _ ?_ other valid⟩
              · rw [written_clientTurn] at lines ⊢
                simpa [ClientEvent.line?, MiningSubmitMessage.response, sameId] using lines
              · simpa [ClientEvent.accepts] using paid
              · simp [ClientEvent.submission?]
        · simp only [masked, ne_eq, gate, not_false_eq_true, if_true, Program.run_bind,
            run_client_joined, run_write outcomes _ opened]
          refine ⟨_, _, _, rfl, rfl, .errored _ .otherUnknown "Version mask is not allowed" [] ?_,
            fun _ _ rolling => rolling.elim⟩
          simp [ClientEvent.line?, sameId]
      · refine ⟨_, _, _, rfl, rfl, .errored _ .otherUnknown "Validation error"
          (errors.map ValidationError.value) ?_, fun _ valid => nomatch valid⟩
        simp [ClientEvent.line?]

/-- The dispatch of a submission hands its result on. -/
theorem run_handleMessage_of_submit (sha256 : Bytes → Bytes) {fields : Fields}
    (opened : state.Initialized)
    (submit : RequestMethod.ofValue (fields.lookup "method") = some .submit)
    {result : Except Thrown Bool} {after : ClientState} {final : ClientHistory}
    (ran : (handleSubmitMessage sha256 fields).run outcomes.environment state [] = ⟨result, after, final⟩)
    (same : SameConnection state after) :
    (handleMessage sha256 (some (.object fields))).run outcomes.environment state [] =
      ⟨result.map fun _ => (), after, clientTurn final⟩ := by
  have method : Value.field (some (.object fields)) "method" = .ok (fields.lookup "method") := rfl
  unfold handleMessage dispatch startWhenReady
  simp only [Program.bind_eq, method, Program.ofExcept, Program.bind, requestFields, submit,
    Program.load, Program.run, Program.run_bind, opened.initialized, Bool.not_true, Bool.false_eq_true,
    if_false, run_client_joined, ran]
  cases result with
  | error thrown => rfl
  | ok success =>
      cases success with
      | false => rfl
      | true => simp [Program.run, (same.initialized opened).initialized, Except.map]

end Runs

/-- The success line is written only for an accepted proof, and a handler that returns has written
exactly one line that carries an id, which is the id of the message. -/
def AnswersOnce (id : Json) (run : Program.Run ClientState ClientAnswer ClientTask Thrown Unit) : Prop :=
  (.response id (.bool true) ∈ written run.history → accepted run.history) ∧
    ∀ result, run.result = .ok result → (written run.history).filterMap Line.id? = [id]

/-- A refused mask is followed by a success line that no proof has earned. -/
theorem not_answersOnce_of_refused (sha256 : Bytes → Bytes) {outcomes : SubmitOutcomes}
    {state : ClientState} (opened : state.Initialized) {fields : Fields}
    (submit : RequestMethod.ofValue (fields.lookup "method") = some .submit)
    (refused : outcomes.RefusesMask state fields) :
    ¬ AnswersOnce (messageId fields)
      ((handleMessage sha256 (some (.object fields))).run outcomes.environment state []) := by
  obtain ⟨result, after, final, ran, same, unpaid, lines, _⟩ :=
    run_handleSubmitMessage_of_refused outcomes sha256 opened refused
  rw [run_handleMessage_of_submit outcomes sha256 opened submit ran same]
  simp [AnswersOnce, lines, unpaid]

/-- A submission on an initialised connection is answered once and truthfully if and only if its mask
is not refused. -/
theorem handleMessage_answersOnce_iff (sha256 : Bytes → Bytes) (outcomes : SubmitOutcomes)
    {state : ClientState} (opened : state.Initialized) {fields : Fields}
    (submit : RequestMethod.ofValue (fields.lookup "method") = some .submit) :
    AnswersOnce (messageId fields)
        ((handleMessage sha256 (some (.object fields))).run outcomes.environment state []) ↔
      ¬ outcomes.RefusesMask state fields := by
  constructor
  · intro answers refused
    exact not_answersOnce_of_refused sha256 opened submit refused answers
  · intro contained
    obtain ⟨result, after, final, ran, same, answered, _⟩ :=
      run_handleSubmitMessage_of_not_refused outcomes sha256 opened contained
    rw [run_handleMessage_of_submit outcomes sha256 opened submit ran same]
    cases answered with
    | thrown error lines => simp [AnswersOnce, lines, Except.map]
    | errored success code message data lines => simp [AnswersOnce, lines, Line.id?]
    | succeeded success lines paid => simp [AnswersOnce, lines, paid, Line.id?]

/-- A connection that negotiated the full rolling mask and created its entity. -/
def rollingConnection : ClientState where
  clientSubscription := some ⟨.number 1, "cpuminer"⟩
  clientConfiguration := some ⟨.number 2, [], true, ⟨0x1fffe000, by decide⟩, none⟩
  clientAuthorization := some ⟨.number 3, "miner", "worker1", none⟩
  stratumSubscription := true
  stratumInitialized := true
  entity := true
  extraNonceAndSessionId := some "00c0ffee"
  sessionStart := some 0

def rollingSubmit (versionBits : String) : Fields :=
  [("id", .number 7), ("method", .string "mining.submit"),
    ("params", .array [.string "worker1", .string "2", .string "00000000", .string "0",
      .string "00000000", .string versionBits])]

/-- The job and its template are stored, and the chain service accepts every proof. -/
def acceptingOutcomes : SubmitOutcomes where
  now := 0
  insertClient := .ok ()
  creatingEntity := .ok ()
  job := some (.own ⟨"2", "2"⟩)
  jobTemplate := some (.own ⟨getBlockTemplate (List.replicate 32 7) (List.replicate 32 1) 0, ⟨"2", 0, false⟩⟩)
  fee := 100
  submitProof := .ok ⟨.result true, .inl rfl⟩

theorem rollingConnection_initialized : rollingConnection.Initialized := ⟨rfl, rfl, rfl⟩

/-- A submission that rolls no bit is answered once. -/
theorem handleMessage_answersOnce_unrolled :
    AnswersOnce (.number 7) ((handleMessage id (some (.object (rollingSubmit "0")))).run
      acceptingOutcomes.environment rollingConnection []) := by
  apply (handleMessage_answersOnce_iff id acceptingOutcomes rollingConnection_initialized rfl).mpr
  rintro ⟨submission, decoded, _, _, configuration, configured, exceeded⟩
  obtain rfl := Validated.valid.inj (Except.ok.inj decoded)
  obtain rfl := Option.some.inj configured
  have bits : parseHex (hexText 0) = .ofNat 0 := parseHex_hexText (by norm_num)
  apply exceeded
  show (parseHex (hexText 0)).toInt32 &&& ~~~0x1fffe000#32 = 0
  rw [bits, Number.toInt32_ofNat]
  decide

/-- A submission that rolls a bit outside the mask receives the success line. -/
theorem handleMessage_accepts_refused_mask :
    ¬ AnswersOnce (.number 7) ((handleMessage id (some (.object (rollingSubmit "20000000")))).run
      acceptingOutcomes.environment rollingConnection []) := by
  apply not_answersOnce_of_refused id rollingConnection_initialized rfl
  refine ⟨_, rfl, rfl, ⟨rfl, .inl rfl, rfl, _, rfl⟩, _, rfl, ?_⟩
  have bits : parseHex (hexText 0x20000000) = .ofNat 0x20000000 := parseHex_hexText (by norm_num)
  show (parseHex (hexText 0x20000000)).toInt32 &&& ~~~0x1fffe000#32 ≠ 0
  rw [bits, Number.toInt32_ofNat]
  decide

end ComptoMiningPool
