import ComptoMiningPool.Client.Startup
import ComptoMiningPool.Client.Stores

/-
This file models a connection that handles one task after the other. It proves when the version gate of
a submission agrees with the negotiated configuration.
-/

namespace ComptoMiningPool

open JavaScript Async

abbrev ClientEnvironment := ClientHistory → (call : ClientCall) → ClientAnswer call

/-- An environment validates every request with the decoder. Its other answers are free. -/
structure Decodes (decoder : Decoder) (environment : ClientEnvironment) : Prop where
  subscription : ∀ history fields,
    environment history (.validateSubscription fields) = decoder.subscription fields
  configuration : ∀ history fields,
    environment history (.validateConfiguration fields) = decoder.configuration fields
  authorization : ∀ history fields,
    environment history (.validateAuthorization fields) = decoder.authorization fields
  submit : ∀ history fields, environment history (.validateSubmit fields) = decoder.submit fields

/-- A session handles each task to its end, and each task meets its own environment. -/
abbrev ClientSession := List (ClientEnvironment × ClientTask)

def ClientTask.after (sha256 : Bytes → Bytes) (state : ClientState)
    (entry : ClientEnvironment × ClientTask) : ClientState :=
  ((entry.2.program sha256).run entry.1 state []).state

def ClientSession.run (sha256 : Bytes → Bytes) (session : ClientSession) : ClientState :=
  session.foldl (ClientTask.after sha256) {}

/-- The configuration that a task negotiates when its request is accepted. -/
def ClientTask.configuration? : ClientTask → Option ConfigurationMessage
  | .line (some (.object fields)) =>
      if RequestMethod.ofValue (fields.lookup "method") = some .configure then
        match ConfigurationMessage.decode fields with
        | .ok (.valid message) => some message
        | _ => none
      else none
  | _ => none

/-- Version rolling is negotiated by the newest accepted configuration. -/
def ClientSession.negotiated (session : ClientSession) : Bool :=
  match (session.filterMap fun entry => entry.2.configuration?).getLast? with
  | some configuration => configuration.versionRolling
  | none => false

/-- The sixth parameter of a submit is there and is not null. -/
def carriesVersionBits (fields : Fields) : Bool :=
  match Value.index (fields.lookup "params") 5 with
  | .ok versionBits => hasValue versionBits
  | .error _ => false

/-- A submit passes the version gate when its handler goes on to the submission itself, which begins
with the assertion of the authorization. -/
def PassesGate (sha256 : Bytes → Bytes) (environment : ClientEnvironment) (state : ClientState)
    (fields : Fields) : Prop :=
  ∃ authorized, .called (.assert .clientAuthorization authorized) () ∈
    ((handleMessage sha256 (some (.object fields))).run environment state []).history

/-- The gate lets a submit pass exactly when its version bits agree with the negotiation. -/
def GateAgrees (sha256 : Bytes → Bytes) (environment : ClientEnvironment) (session : ClientSession)
    (fields : Fields) : Prop :=
  PassesGate sha256 environment (ClientSession.run sha256 session) fields ↔
    (carriesVersionBits fields ↔ ClientSession.negotiated session)

/-- A store that leaves the configuration. -/
def SameConfiguration (before after : ClientState) : Prop :=
  after.clientConfiguration = before.clientConfiguration

theorem sameConfiguration_of_store (state after : ClientState) (store : ClientStore state after) :
    SameConfiguration state after := by
  cases store <;> rfl

theorem sameConfiguration_of_ordinary (state after : ClientState) (store : OrdinaryStore state after) :
    SameConfiguration state after :=
  sameConfiguration_of_store state after store.client

section Configuration

variable {allowed : ClientCall → Prop}

/-- A run in the frame keeps the configuration and makes allowed calls only. -/
theorem run_of_covers {V : Type} {program : ClientProgram V}
    (covers : (clientFrame SameConfiguration allowed).Covers program) (environment : ClientEnvironment)
    (state : ClientState) (history : ClientHistory) :
    (program.run environment state history).state.clientConfiguration = state.clientConfiguration ∧
      ∃ added, (program.run environment state history).history = added ++ history ∧
        ∀ event ∈ added, event.Asks allowed := by
  have closed : (clientFrame SameConfiguration allowed).Closed := clientFrame_closed
  have reflexive : ∀ state, SameConfiguration state state := fun _ => rfl
  have transitive : ∀ first second third, SameConfiguration first second →
      SameConfiguration second third → SameConfiguration first third :=
    fun _ _ _ left right => Eq.trans right left
  have kept := (covers state trivial).run closed reflexive transitive environment trivial history
  obtain ⟨same, added, whole, asked⟩ := kept
  refine ⟨same, added, whole, ?_⟩
  intro event member
  have asks := asked event member
  cases event with
  | called request answer =>
      obtain ⟨_, allows⟩ := asks
      exact allows
  | answered request answer =>
      obtain ⟨_, allows⟩ := asks
      exact allows
  | started label => trivial
  | issued request => trivial

end Configuration

section Session

variable {decoder : Decoder} {environment : ClientEnvironment}

/-- A program that keeps the configuration keeps it in every run. -/
theorem Keeps.run {V : Type} {program : ClientProgram V}
    (kept : Keeps SameConfiguration program) (environment : ClientEnvironment) (state : ClientState)
    (history : ClientHistory) :
    (program.run environment state history).state.clientConfiguration = state.clientConfiguration :=
  (run_of_covers kept environment state history).1

theorem configuration_guarded (program : ClientProgram Unit) (environment : ClientEnvironment)
    (state : ClientState) :
    ((guarded program).run environment state []).state.clientConfiguration =
      (program.run environment state []).state.clientConfiguration := by
  unfold guarded
  rw [Program.run_attempt, Program.run_joined]
  dsimp only
  cases (program.run environment state []).result with
  | ok value => rfl
  | error thrown => exact Keeps.run (covers_ended sameConfiguration_of_ordinary anyCall) environment _ _

/-- A configure request stores its message when the decoder accepts it. -/
theorem configuration_handleConfigureMessage (decodes : Decodes decoder environment) (fields : Fields)
    (state : ClientState) (history : ClientHistory) :
    ((handleConfigureMessage fields).run environment state history).state.clientConfiguration =
      match decoder.configuration fields with
      | .ok (.valid message) => some message
      | _ => state.clientConfiguration := by
  unfold handleConfigureMessage validateMessage validateConfiguration
  simp only [Program.bind_eq, Program.run_bind, Program.run_joined, Program.awaiting, Program.bind,
    Program.run, Program.run_ofExcept, decodes.configuration]
  cases decoder.configuration fields with
  | error thrown => rfl
  | ok validated =>
      cases validated with
      | valid message =>
          simp only [Program.pure_eq, Program.run, Program.modify, Program.bind]
          exact Keeps.run (keeps_answer sameConfiguration_of_store _) environment _ _
      | invalid id errors =>
          have writes : Keeps SameConfiguration (write (.error id .otherUnknown "Validation error"
              (errors.map ValidationError.value))) :=
            covers_write sameConfiguration_of_ordinary (fun _ _ => trivial) trivial
          have kept := writes.run environment state
            (.answered (.validateConfiguration fields) (.ok (.invalid id errors)) ::
              .issued (.validateConfiguration fields) :: history)
          simp only [Program.pure_eq, Program.run_bind, Program.run_joined, Program.run]
          generalize Program.run environment (write _) state _ = answered at kept ⊢
          obtain ⟨result, after, final⟩ := answered
          cases result with
          | ok written => exact kept
          | error thrown => exact kept

theorem configuration_handleMessage (sha256 : Bytes → Bytes) {isPublicKey : String → Bool}
    (decodes : Decodes (stratumDecoder isPublicKey) environment) (line : Option Json)
    (state : ClientState) :
    ((handleMessage sha256 line).run environment state []).state.clientConfiguration =
      (ClientTask.configuration? (.line line)).or state.clientConfiguration := by
  cases line with
  | none => exact Keeps.run (covers_ended sameConfiguration_of_ordinary anyCall) environment state []
  | some parsedMessage =>
      by_cases configures : ∃ fields, parsedMessage = .object fields ∧
          RequestMethod.ofValue (fields.lookup "method") = some .configure
      · obtain ⟨fields, rfl, method⟩ := configures
        have found : Value.field (some (.object fields)) "method" = .ok (fields.lookup "method") := rfl
        have stored := configuration_handleConfigureMessage decodes fields state []
        have negotiated : (ClientTask.configuration? (.line (some (.object fields)))).or
            state.clientConfiguration = match ConfigurationMessage.decode fields with
              | .ok (.valid message) => some message
              | _ => state.clientConfiguration := by
          rw [ClientTask.configuration?, if_pos method]
          split <;> rfl
        rw [negotiated]
        unfold handleMessage dispatch
        simp only [Program.bind_eq, found, Program.ofExcept, Program.bind, requestFields, method,
          Program.run_bind, Program.run_joined]
        generalize (handleConfigureMessage fields).run environment state [] = handled at stored ⊢
        obtain ⟨result, after, final⟩ := handled
        cases result with
        | error thrown => exact stored
        | ok success =>
            have continues : Keeps SameConfiguration (if !success then pure () else startWhenReady) :=
              covers_continue sameConfiguration_of_ordinary anyCall success
            exact (continues.run environment after _).trans stored
      · have other : ∀ fields, parsedMessage = .object fields →
            RequestMethod.ofValue (fields.lookup "method") ≠ some .configure :=
          fun fields same method => configures ⟨fields, same, method⟩
        have absent : ClientTask.configuration? (.line (some parsedMessage)) = none := by
          cases parsedMessage with
          | object fields => rw [ClientTask.configuration?, if_neg (other fields rfl)]
          | _ => rfl
        rw [absent]
        have keeps : Keeps SameConfiguration (handleMessage sha256 (some parsedMessage)) := by
          apply keeps_handleMessage sameConfiguration_of_store
          intro fields same method
          exact absurd method (other fields (Option.some.inj same))
        exact keeps.run environment state []

/-- A task leaves the configuration that it negotiates, or the one before it. -/
theorem configuration_after (sha256 : Bytes → Bytes) {isPublicKey : String → Bool} (state : ClientState)
    {entry : ClientEnvironment × ClientTask} (decodes : Decodes (stratumDecoder isPublicKey) entry.1) :
    (ClientTask.after sha256 state entry).clientConfiguration =
      entry.2.configuration?.or state.clientConfiguration := by
  obtain ⟨environment, task⟩ := entry
  cases task with
  | line message =>
      have stored := configuration_handleMessage sha256 decodes message state
      exact (configuration_guarded _ environment state).trans stored
  | newMiningJob template =>
      exact Keeps.run (covers_guarded sameConfiguration_of_ordinary anyCall
        (covers_sendNewMiningJob sameConfiguration_of_ordinary anyCall template)) environment state []
  | destroy => exact Keeps.run keeps_destroy environment state []

/-- The connection holds the newest accepted configuration of its session. -/
theorem configuration_session (sha256 : Bytes → Bytes) {isPublicKey : String → Bool}
    {session : ClientSession} (decodes : ∀ entry ∈ session, Decodes (stratumDecoder isPublicKey) entry.1) :
    (ClientSession.run sha256 session).clientConfiguration =
      (session.filterMap fun entry => entry.2.configuration?).getLast? := by
  induction session using List.reverseRecOn with
  | nil => rfl
  | append_singleton session entry ih =>
      have earlier := ih fun other member => decodes other (List.mem_append_left _ member)
      have newest := configuration_after sha256 (ClientSession.run sha256 session)
        (decodes entry (List.mem_append_right _ (List.mem_singleton.mpr rfl)))
      rw [ClientSession.run, List.foldl_append]
      change (ClientTask.after sha256 (ClientSession.run sha256 session) entry).clientConfiguration = _
      rw [newest, earlier, List.filterMap_append]
      cases negotiated : entry.2.configuration? with
      | none => simp [negotiated]
      | some message => simp [negotiated]

end Session

/-- The assertion of the authorization is the first call of the submission itself. -/
def ClientCall.AssertsAuthorization : ClientCall → Prop
  | .assert .clientAuthorization _ => True
  | _ => False

section Gate

variable {isPublicKey : String → Bool} {environment : ClientEnvironment} {state : ClientState}
  {fields : Fields} {submission : MiningSubmitMessage}

/-- The validation of a valid submit makes no assertion. -/
def validatedHistory (fields : Fields) (submission : MiningSubmitMessage) : ClientHistory :=
  clientTurn [.answered (.validateSubmit fields) (.ok (.valid submission)), .issued (.validateSubmit fields)]

/-- A valid submit with version bits goes on to the submission itself, or it is refused. -/
theorem run_handleSubmitMessage_of_valid (sha256 : Bytes → Bytes)
    (answered : ∀ history, environment history (.validateSubmit fields) = .ok (.valid submission))
    (masked : hasValue submission.versionMask = true) :
    (handleSubmitMessage sha256 fields).run environment state [] =
      if state.clientConfiguration.map ConfigurationMessage.versionRolling = some true then
        (((handleMiningSubmission sha256 submission).joined .turn).bind fun result =>
          if !result then pure false else (write submission.response).joined .turn).run environment state
            (validatedHistory fields submission)
      else
        (((write (.error submission.id .otherUnknown "Version mask is not allowed" [])).joined
          ClientCall.turn).bind fun _ => .done false).run environment state
            (validatedHistory fields submission) := by
  unfold handleSubmitMessage validateMessage validateSubmit
  simp only [Program.bind_eq, Program.awaiting, Program.bind, Program.run_bind, Program.run_joined,
    Program.run, Program.run_ofExcept, answered, Program.pure_eq, Program.load, masked]
  by_cases rolling : state.clientConfiguration.map ConfigurationMessage.versionRolling = some true
  · simp only [rolling, ne_eq, not_true, if_false, if_true, Program.run_bind, Program.run_joined]
    rfl
  · simp only [rolling, ne_eq, not_false_eq_true, if_true, if_false, Program.run_bind,
      Program.run_joined]
    rfl

/-- A valid submit of an initialised connection passes exactly when version rolling is negotiated,
because its version bits have a default. -/
theorem passesGate_iff (sha256 : Bytes → Bytes)
    (decodes : Decodes (stratumDecoder isPublicKey) environment)
    (initialized : state.stratumInitialized = true)
    (submit : RequestMethod.ofValue (fields.lookup "method") = some .submit)
    (accepted : MiningSubmitMessage.decode fields = .ok (.valid submission)) :
    PassesGate sha256 environment state fields ↔
      state.clientConfiguration.map ConfigurationMessage.versionRolling = some true := by
  have masked := (MiningSubmitMessage.decode_valid accepted).2
  have answered : ∀ history, environment history (.validateSubmit fields) =
      .ok (.valid submission) := fun history => (decodes.submit history fields).trans accepted
  have handled : (handleMessage sha256 (some (.object fields))).run environment state [] =
      (((handleSubmitMessage sha256 fields).joined .turn).bind fun success =>
        if !success then pure () else startWhenReady).run environment state [] := by
    have method : Value.field (some (.object fields)) "method" = .ok (fields.lookup "method") := rfl
    unfold handleMessage dispatch
    simp only [Program.bind_eq, method, Program.ofExcept, Program.bind, requestFields, submit,
      Program.load, Program.run, initialized, Bool.not_true, Bool.false_eq_true, if_false]
  rw [PassesGate, handled]
  by_cases rolling : state.clientConfiguration.map ConfigurationMessage.versionRolling = some true
  · refine iff_of_true ⟨state.clientAuthorization.isSome, ?_⟩ rolling
    apply Program.history_subset_bind
    apply Program.history_subset_joined
    rw [run_handleSubmitMessage_of_valid sha256 answered masked, if_pos rolling]
    apply Program.history_subset_bind
    apply Program.history_subset_joined
    apply Program.history_subset_bind environment (assert .clientAuthorization
      state.clientAuthorization.isSome "Client authorization is null")
    have begins := Program.history_suffix environment
      (if state.clientAuthorization.isSome then pure () else .failed (.error "Client authorization is null") :
        ClientProgram Unit) state (.called (.assert .clientAuthorization
          state.clientAuthorization.isSome) () :: validatedHistory fields submission)
    exact begins.subset List.mem_cons_self
  · refine iff_of_false ?_ rolling
    rintro ⟨authorized, member⟩
    have socket : ∀ request : ClientCall, request.OfSocket → ¬ request.AssertsAuthorization := by
      intro request ofSocket asserts
      cases request with
      | assert asserted holds => exact ofSocket
      | _ => exact asserts
    have writes : (clientFrame SameConfiguration fun request => ¬ request.AssertsAuthorization).Covers
        (write (.error submission.id .otherUnknown "Version mask is not allowed" [])) :=
      covers_write sameConfiguration_of_ordinary (fun request closes => socket request closes.ofSocket)
        (socket (.writeSocket _) trivial)
    have written := (run_of_covers writes environment state (validatedHistory fields submission)).2
    rw [Program.run_bind, Program.run_joined, run_handleSubmitMessage_of_valid sha256 answered masked,
      if_neg rolling, Program.run_bind, Program.run_joined] at member
    generalize (write _).run environment state (validatedHistory fields submission) = reply
      at written member
    obtain ⟨result, after, final⟩ := reply
    obtain ⟨added, whole, asked⟩ := written
    obtain rfl : final = added ++ validatedHistory fields submission := whole
    have unasserted : .called (.assert .clientAuthorization authorized) () ∉
        added ++ validatedHistory fields submission := by
      intro earlier
      rcases List.mem_append.mp earlier with newer | validated
      · exact asked _ newer trivial
      · simp [validatedHistory, clientTurn] at validated
    cases result with
    | error thrown => simp [unasserted] at member
    | ok value => simp [Program.run, unasserted] at member

end Gate

/-- After every session that initialises the connection, the version gate agrees with the negotiation
for a valid submit if and only if the submit carries its version bits. -/
theorem versionGate_agrees_iff (sha256 : Bytes → Bytes) {isPublicKey : String → Bool}
    {session : ClientSession} (decodes : ∀ entry ∈ session, Decodes (stratumDecoder isPublicKey) entry.1)
    (initialized : (ClientSession.run sha256 session).stratumInitialized = true) {environment : ClientEnvironment}
    (decoded : Decodes (stratumDecoder isPublicKey) environment) {fields : Fields}
    {submission : MiningSubmitMessage}
    (submit : RequestMethod.ofValue (fields.lookup "method") = some .submit)
    (accepted : MiningSubmitMessage.decode fields = .ok (.valid submission)) :
    GateAgrees sha256 environment session fields ↔ carriesVersionBits fields := by
  have negotiated : (ClientSession.run sha256 session).clientConfiguration.map ConfigurationMessage.versionRolling =
      some true ↔ ClientSession.negotiated session := by
    rw [configuration_session sha256 decodes, ClientSession.negotiated]
    cases (session.filterMap fun entry => entry.2.configuration?).getLast? with
    | none => simp
    | some configuration => simp
  rw [GateAgrees, passesGate_iff sha256 decoded initialized submit accepted, negotiated]
  cases ClientSession.negotiated session
  · cases carriesVersionBits fields <;> simp
  · cases carriesVersionBits fields <;> simp

/-- A session subscribes, configures version rolling with the request or without it, and authorizes. -/
def openingSession (configures : Bool) : ClientSession :=
  let configure := requestTask 2 .configure [.array [.string "version-rolling"], .object []]
  let tasks := requestTask 1 .subscribe [.string "cpuminer"] :: (if configures then [configure] else []) ++
    [requestTask 3 .authorize [.string "miner.worker1", .null]]
  tasks.map fun task => (acceptingOutcomes.environment, task)

theorem decodes_acceptingOutcomes :
    Decodes (stratumDecoder fun _ => true) acceptingOutcomes.environment :=
  ⟨fun _ _ => rfl, fun _ _ => rfl, fun _ _ => rfl, fun _ _ => rfl⟩

/-- A submit with the version bits or without them. -/
def openingSubmit (versionBits : Option String) : Fields :=
  [("id", .number 7), ("method", .string "mining.submit"),
    ("params", .array ([.string "worker1", .string "2", .string "00000000", .string "65f00000",
      .string "00000000"] ++ (versionBits.map Json.string).toList))]

theorem openingSession_decodes (configures : Bool) :
    ∀ entry ∈ openingSession configures, Decodes (stratumDecoder fun _ => true) entry.1 := by
  intro entry member
  obtain ⟨task, _, rfl⟩ := List.mem_map.mp member
  exact decodes_acceptingOutcomes

/-- A client that negotiated version rolling and sends its version bits meets an agreeing gate. -/
theorem versionGate_agrees_rolling :
    GateAgrees id acceptingOutcomes.environment (openingSession true) (openingSubmit (some "2000")) :=
  (versionGate_agrees_iff id (openingSession_decodes true) (by decide +kernel) decodes_acceptingOutcomes
    rfl rfl).mpr rfl

/-- A client that never configured version rolling is refused although it sends no version bits. -/
theorem versionGate_refuses_unconfigured :
    ¬ GateAgrees id acceptingOutcomes.environment (openingSession false) (openingSubmit none) := by
  have initialized : (ClientSession.run id (openingSession false)).stratumInitialized = true := by
    decide +kernel
  have unconfigured : (ClientSession.run id (openingSession false)).clientConfiguration = none := by
    rw [configuration_session id (openingSession_decodes false)]
    rfl
  have refused : PassesGate id acceptingOutcomes.environment (ClientSession.run id (openingSession false))
      (openingSubmit none) ↔ _ := passesGate_iff id decodes_acceptingOutcomes initialized rfl rfl
  intro agrees
  have passes := agrees.mpr (by decide)
  rw [unconfigured] at refused
  cases refused.mp passes

end ComptoMiningPool
