import ComptoMiningPool.Async.Frame
import ComptoMiningPool.Client.StratumV1Client

/-
This file proves what every interleaving of the handlers of one connection keeps: the order of its
startup and the origin of its authorization.
-/

namespace ComptoMiningPool

open JavaScript Async

def ClientState.Open (state : ClientState) : Prop :=
  state.destroyed = false ∧ state.writableEnded = false

namespace ClientEvent

def initializes : ClientEvent → Bool
  | .called .initializing _ => true
  | _ => false

def setsDifficulty : ClientEvent → Bool
  | .issued (.writeSocket (.setDifficulty _)) => true
  | _ => false

def subscribesJobs : ClientEvent → Bool
  | .called .subscribeNewMiningJob _ => true
  | _ => false

def authorizes : ClientEvent → Option AuthorizationMessage
  | .called (.authorized message) _ => some message
  | _ => none

/-- A quiet event neither starts the stratum nor authorizes. -/
def Quiet (event : ClientEvent) : Prop :=
  initializes event = false ∧ setsDifficulty event = false ∧ subscribesJobs event = false ∧
    authorizes event = none

end ClientEvent

/-- The authorizations that the handlers stored, newest first. -/
def authorizations (trace : ClientTrace) : List AuthorizationMessage :=
  trace.filterMap fun pair => ClientEvent.authorizes pair.2

section Milestones

variable (trace : ClientTrace)

def SubscriptionValidated : Prop :=
  ∃ me fields message, (me, .answered (.validateSubscription fields) (.ok (.valid message))) ∈ trace

def AuthorizationValidated : Prop :=
  ∃ me fields message, (me, .answered (.validateAuthorization fields) (.ok (.valid message))) ∈ trace

/-- The response to a validated subscription was handed to the socket. -/
def SubscriptionAnswered : Prop :=
  ∃ me fields message clientId,
    (me, .answered (.validateSubscription fields) (.ok (.valid message))) ∈ trace ∧
      (me, .issued (.writeSocket (SubscriptionMessage.response message clientId))) ∈ trace

def AuthorizationAnswered : Prop :=
  ∃ me fields message,
    (me, .answered (.validateAuthorization fields) (.ok (.valid message))) ∈ trace ∧
      (me, .issued (.writeSocket (AuthorizationMessage.response message))) ∈ trace

def DifficultySet : Prop := ∃ pair ∈ trace, ClientEvent.setsDifficulty pair.2 = true

end Milestones

section Growth

variable {before after : ClientTrace}

theorem SubscriptionValidated.mono (grows : before ⊆ after) :
    SubscriptionValidated before → SubscriptionValidated after := by
  rintro ⟨me, fields, message, member⟩
  exact ⟨me, fields, message, grows member⟩

theorem AuthorizationValidated.mono (grows : before ⊆ after) :
    AuthorizationValidated before → AuthorizationValidated after := by
  rintro ⟨me, fields, message, member⟩
  exact ⟨me, fields, message, grows member⟩

theorem SubscriptionAnswered.mono (grows : before ⊆ after) :
    SubscriptionAnswered before → SubscriptionAnswered after := by
  rintro ⟨me, fields, message, clientId, validated, issued⟩
  exact ⟨me, fields, message, clientId, grows validated, grows issued⟩

theorem AuthorizationAnswered.mono (grows : before ⊆ after) :
    AuthorizationAnswered before → AuthorizationAnswered after := by
  rintro ⟨me, fields, message, validated, issued⟩
  exact ⟨me, fields, message, grows validated, grows issued⟩

theorem DifficultySet.mono (grows : before ⊆ after) : DifficultySet before → DifficultySet after := by
  rintro ⟨pair, member, sets⟩
  exact ⟨pair, grows member, sets⟩

end Growth

/-- The assertions of the connection speak about its own three parts. -/
def connectionParts : List Asserted := [.clientSubscription, .clientAuthorization, .extraNonceAndSessionId]

/-- The monitor fixes what has to come before each milestone and before each payout. -/
def connectionMonitor (trace : ClientTrace) (me : ℕ) : ClientEvent → Prop
  | .called .initializing _ => (∀ pair ∈ trace, ClientEvent.initializes pair.2 = false) ∧
      SubscriptionValidated trace ∧ AuthorizationValidated trace
  | .called .subscribeNewMiningJob _ => ∀ pair ∈ trace, ClientEvent.subscribesJobs pair.2 = false
  | .called (.assert asserted holds) _ => asserted ∈ connectionParts → holds = true
  | .called (.authorized message) _ => ∃ fields,
      (me, .answered (.validateAuthorization fields) (.ok (.valid message))) ∈ trace
  | .issued (.writeSocket (.setDifficulty _)) =>
      (∀ pair ∈ trace, ClientEvent.setsDifficulty pair.2 = false) ∧
        SubscriptionAnswered trace ∧ AuthorizationAnswered trace
  | .issued (.writeSocket (.notify _)) => DifficultySet trace
  | .issued (.submitProof submission) => ∃ message, (authorizations trace).head? = some message ∧
      submission.recipient = message.address
  | _ => True

/-- The parts of the connection and the milestones of its trace belong together. -/
structure ConnectionCore (state : ClientState) (trace : ClientTrace) : Prop where
  subscribed : state.clientSubscription.isSome →
    state.extraNonceAndSessionId.isSome ∧ SubscriptionValidated trace
  authorized : state.clientAuthorization.isSome → AuthorizationValidated trace
  session : state.sessionStart.isSome → state.extraNonceAndSessionId.isSome
  ready : state.stratumInitialized = true →
    state.clientSubscription.isSome ∧ state.clientAuthorization.isSome
  idle : state.stratumInitialized = false → ∀ pair ∈ trace, ClientEvent.initializes pair.2 = false
  single : ∀ first second, (first, .called .initializing ()) ∈ trace →
    (second, .called .initializing ()) ∈ trace → first = second
  difficultyStarted : ∀ pair ∈ trace, ClientEvent.setsDifficulty pair.2 = true →
    (pair.1, .called .initializing ()) ∈ trace
  jobsStarted : ∀ pair ∈ trace, ClientEvent.subscribesJobs pair.2 = true →
    (pair.1, .called .initializing ()) ∈ trace ∧ DifficultySet trace
  recorded : state.clientAuthorization = (authorizations trace).head?

/-- On an open socket both parts of the connection have been answered. -/
structure ConnectionInvariant (state : ClientState) (trace : ClientTrace) : Prop where
  core : ConnectionCore state trace
  subscriptionAnswered : state.clientSubscription.isSome → state.Open → SubscriptionAnswered trace
  authorizationAnswered : state.clientAuthorization.isSome → state.Open → AuthorizationAnswered trace

/-- A thread relies on the others to leave an initialised connection initialised. -/
def staysInitialized (before after : ClientState) : Prop :=
  before.stratumInitialized = true → after.stratumInitialized = true

def connectionContract (decoder : Decoder) : Contract ClientState ClientAnswer ClientTask where
  admits := clientAdmits decoder
  monitor := connectionMonitor
  rely := staysInitialized
  invariant := ConnectionInvariant

section Steps

variable {state after : ClientState} {trace : ClientTrace} {me : ℕ} {event : ClientEvent}

theorem authorizations_cons (stored : ClientEvent.authorizes event = none) :
    authorizations ((me, event) :: trace) = authorizations trace := by
  simp only [authorizations, List.filterMap_cons, stored]

/-- The thread that started the stratum may set the difficulty and then subscribe to the jobs. -/
theorem ConnectionCore.cons (kept : ConnectionCore state trace)
    (started : ClientEvent.initializes event = false) (stored : ClientEvent.authorizes event = none)
    (difficulty : ClientEvent.setsDifficulty event = true → (me, .called .initializing ()) ∈ trace)
    (jobs : ClientEvent.subscribesJobs event = true →
      (me, .called .initializing ()) ∈ trace ∧ DifficultySet trace) :
    ConnectionCore state ((me, event) :: trace) := by
  have grows : trace ⊆ (me, event) :: trace := List.subset_cons_self _ _
  have older : ∀ {thread}, (thread, .called .initializing ()) ∈ (me, event) :: trace →
      (thread, .called .initializing ()) ∈ trace := by
    intro thread member
    rcases List.mem_cons.mp member with equal | member
    · cases equal
      cases started
    · exact member
  constructor
  · intro subscribed
    obtain ⟨session, validated⟩ := kept.subscribed subscribed
    exact ⟨session, validated.mono grows⟩
  · intro authorized
    exact (kept.authorized authorized).mono grows
  · exact kept.session
  · exact kept.ready
  · intro idle pair member
    rcases List.mem_cons.mp member with rfl | member
    · exact started
    · exact kept.idle idle pair member
  · intro first second member member'
    exact kept.single first second (older member) (older member')
  · intro pair member sets
    rcases List.mem_cons.mp member with rfl | member
    · exact grows (difficulty sets)
    · exact grows (kept.difficultyStarted pair member sets)
  · intro pair member subscribes
    rcases List.mem_cons.mp member with rfl | member
    · exact ⟨grows (jobs subscribes).1, (jobs subscribes).2.mono grows⟩
    · obtain ⟨started, difficulty⟩ := kept.jobsStarted pair member subscribes
      exact ⟨grows started, difficulty.mono grows⟩
  · rw [authorizations_cons stored]
    exact kept.recorded

/-- A quiet event keeps the core. -/
theorem ConnectionCore.quiet (kept : ConnectionCore state trace) (quiet : ClientEvent.Quiet event) :
    ConnectionCore state ((me, event) :: trace) := by
  apply kept.cons quiet.1 quiet.2.2.2
  · intro sets
    rw [quiet.2.1] at sets
    cases sets
  · intro subscribes
    rw [quiet.2.2.1] at subscribes
    cases subscribes

/-- A quiet event keeps the invariant. -/
theorem ConnectionInvariant.quiet (kept : ConnectionInvariant state trace)
    (quiet : ClientEvent.Quiet event) : ConnectionInvariant state ((me, event) :: trace) := by
  have grows : trace ⊆ (me, event) :: trace := List.subset_cons_self _ _
  refine ⟨kept.core.quiet quiet, ?_, ?_⟩
  · intro subscribed opened
    exact (kept.subscriptionAnswered subscribed opened).mono grows
  · intro authorized opened
    exact (kept.authorizationAnswered authorized opened).mono grows

/-- A store that keeps the parts of the connection and never reopens its socket. -/
structure SameParts (before after : ClientState) : Prop where
  clientSubscription : after.clientSubscription = before.clientSubscription
  clientAuthorization : after.clientAuthorization = before.clientAuthorization
  extraNonceAndSessionId : after.extraNonceAndSessionId = before.extraNonceAndSessionId
  sessionStart : after.sessionStart = before.sessionStart
  stratumInitialized : after.stratumInitialized = before.stratumInitialized
  opened : after.Open → before.Open

theorem ConnectionCore.same (kept : ConnectionCore state trace) (same : SameParts state after) :
    ConnectionCore after trace := by
  constructor
  · rw [same.clientSubscription, same.extraNonceAndSessionId]
    exact kept.subscribed
  · rw [same.clientAuthorization]
    exact kept.authorized
  · rw [same.sessionStart, same.extraNonceAndSessionId]
    exact kept.session
  · rw [same.stratumInitialized, same.clientSubscription, same.clientAuthorization]
    exact kept.ready
  · rw [same.stratumInitialized]
    exact kept.idle
  · exact kept.single
  · exact kept.difficultyStarted
  · exact kept.jobsStarted
  · rw [same.clientAuthorization]
    exact kept.recorded

theorem ConnectionInvariant.same (kept : ConnectionInvariant state trace) (same : SameParts state after) :
    ConnectionInvariant after trace := by
  refine ⟨kept.core.same same, ?_, ?_⟩
  · rw [same.clientSubscription]
    intro subscribed opened
    exact kept.subscriptionAnswered subscribed (same.opened opened)
  · rw [same.clientAuthorization]
    intro authorized opened
    exact kept.authorizationAnswered authorized (same.opened opened)

end Steps

/-- A framed call starts nothing. Its assertions and its payouts read the parts of the connection. -/
def framedCall (state : ClientState) : ClientCall → Prop
  | .initializing => False
  | .subscribeNewMiningJob => False
  | .authorized _ => False
  | .writeSocket (.setDifficulty _) => False
  | .writeSocket (.notify _) => False
  | .assert .clientSubscription holds =>
      state.stratumInitialized = true ∧ holds = state.clientSubscription.isSome
  | .assert .clientAuthorization holds =>
      state.stratumInitialized = true ∧ holds = state.clientAuthorization.isSome
  | .assert .extraNonceAndSessionId holds =>
      state.stratumInitialized = true ∧ holds = state.extraNonceAndSessionId.isSome
  | .submitProof submission => ∃ message, state.clientAuthorization = some message ∧
      submission.recipient = message.address
  | _ => True

def connectionFrame (stable : ClientState → Prop) : Frame ClientState ClientCall where
  stable := stable
  allowed := framedCall
  keeps := SameParts

/-- A condition on the connection outlasts the stores of the frame and the other threads. -/
structure Lasting (stable : ClientState → Prop) : Prop where
  relied : ∀ before after, stable before → staysInitialized before after → stable after
  closed : (connectionFrame stable).Closed

theorem lasting_true : Lasting fun _ => True := ⟨fun _ _ _ _ => trivial, fun _ _ _ _ => trivial⟩

def Initialised (state : ClientState) : Prop := state.stratumInitialized = true

theorem lasting_initialized : Lasting Initialised := by
  refine ⟨fun before after initialized stays => stays initialized, ?_⟩
  intro before after initialized same
  exact same.stratumInitialized.trans initialized

section Frame

variable {decoder : Decoder} {me : ℕ} {stable : ClientState → Prop}

theorem quiet_of_framedCall {state : ClientState} {request : ClientCall}
    (framed : framedCall state request) :
    (∀ answer, ClientEvent.Quiet (.called request answer)) ∧ ClientEvent.Quiet (.issued request) := by
  cases request with
  | initializing => exact framed.elim
  | subscribeNewMiningJob => exact framed.elim
  | authorized message => exact framed.elim
  | writeSocket line =>
      cases line with
      | setDifficulty difficulty => exact framed.elim
      | notify params => exact framed.elim
      | _ => exact ⟨fun _ => ⟨rfl, rfl, rfl, rfl⟩, rfl, rfl, rfl, rfl⟩
  | _ => exact ⟨fun _ => ⟨rfl, rfl, rfl, rfl⟩, rfl, rfl, rfl, rfl⟩

/-- An assertion of the frame holds because the connection is initialised. -/
theorem ConnectionInvariant.monitor_called {state : ClientState} {trace : ClientTrace}
    (kept : ConnectionInvariant state trace) {request : ClientCall} (framed : framedCall state request)
    (answer : ClientAnswer request) : connectionMonitor trace me (.called request answer) := by
  cases request with
  | initializing => exact framed.elim
  | subscribeNewMiningJob => exact framed.elim
  | authorized message => exact framed.elim
  | assert asserted holds =>
      intro part
      cases asserted with
      | clientSubscription => exact framed.2.trans (kept.core.ready framed.1).1
      | clientAuthorization => exact framed.2.trans (kept.core.ready framed.1).2
      | extraNonceAndSessionId =>
          exact framed.2.trans (kept.core.subscribed (kept.core.ready framed.1).1).1
      | jobTemplate => exact absurd part (by decide)
      | versionMask => exact absurd part (by decide)
      | fee => exact absurd part (by decide)
  | _ => trivial

/-- A payout of the frame goes to the newest stored authorization. -/
theorem ConnectionInvariant.monitor_issued {state : ClientState} {trace : ClientTrace}
    (kept : ConnectionInvariant state trace) {request : ClientCall}
    (framed : framedCall state request) : connectionMonitor trace me (.issued request) := by
  cases request with
  | submitProof submission =>
      obtain ⟨message, stored, recipient⟩ := framed
      exact ⟨message, kept.core.recorded.symm.trans stored, recipient⟩
  | writeSocket line =>
      cases line with
      | setDifficulty difficulty => exact framed.elim
      | notify params => exact framed.elim
      | _ => trivial
  | _ => trivial

/-- The invariant of the connection is sound for its frame. -/
theorem connection_sound (decoder : Decoder) (me : ℕ) (lasting : Lasting stable) :
    (connectionFrame stable).Sound (connectionContract decoder) me fun state trace =>
      ConnectionInvariant state trace ∧ stable state where
  stable holds := holds.2
  kept holds := holds.1
  called answer holds framed := by
    have quiet := (quiet_of_framedCall framed).1 answer
    exact ⟨holds.1.monitor_called framed answer, holds.1.quiet quiet, holds.2⟩
  issued holds framed := by
    have quiet := (quiet_of_framedCall framed).2
    exact ⟨holds.1.monitor_issued framed, holds.1.quiet quiet, holds.2⟩
  answered request answer holds := by
    have quiet : ClientEvent.Quiet (.answered request answer) := ⟨rfl, rfl, rfl, rfl⟩
    exact ⟨trivial, holds.1.quiet quiet, holds.2⟩
  resumed holds relied _ kept := ⟨kept, lasting.relied _ _ holds.2 relied⟩
  stored holds same :=
    ⟨fun initialized => same.stratumInitialized.trans initialized, holds.1.same same,
      lasting.closed _ _ holds.2 same⟩

end Frame

/-- A program that keeps to the frame of the connection. -/
abbrev Framed {V : Type} (stable : ClientState → Prop) (program : ClientProgram V) : Prop :=
  ∀ state, stable state → (connectionFrame stable).Holds program state

section Framed

variable {V W : Type} {stable : ClientState → Prop}

theorem Framed.bind (lasting : Lasting stable) {program : ClientProgram V} {rest : V → ClientProgram W}
    (first : Framed stable program) (second : ∀ value, Framed stable (rest value)) :
    Framed stable (program.bind rest) := by
  intro state holds
  exact (first state holds).bind lasting.closed holds second

theorem Framed.attempt (lasting : Lasting stable) {program : ClientProgram V}
    {handler : Thrown → ClientProgram V} (first : Framed stable program)
    (second : ∀ error, Framed stable (handler error)) : Framed stable (program.attempt handler) := by
  intro state holds
  exact (first state holds).attempt lasting.closed holds second

theorem Framed.joined {program : ClientProgram V} (first : Framed stable program) :
    Framed stable (program.joined .turn) := by
  intro state holds
  exact (first state holds).joined fun _ => trivial

theorem framed_done (value : V) : Framed stable (.done value) := fun _ _ => trivial

theorem framed_ofExcept (result : Except Thrown V) : Framed stable (Program.ofExcept result) :=
  fun _ _ => Frame.holds_ofExcept result

/-- One call of the frame that answers with a result or throws. -/
theorem framed_request {request : ClientCall} {result : ClientAnswer request → Except Thrown V}
    (framed : ∀ state, framedCall state request) :
    Framed stable ((Program.awaiting request).bind fun answer => .ofExcept (result answer)) := by
  intro state _
  exact ⟨framed state, fun _ answer _ => Frame.holds_ofExcept (result answer)⟩

theorem sameParts_ended (state : ClientState) : SameParts state { state with writableEnded := true } := by
  refine ⟨rfl, rfl, rfl, rfl, rfl, ?_⟩
  rintro ⟨_, ended⟩
  cases ended

theorem sameParts_destroyed (state : ClientState) : SameParts state { state with destroyed := true } := by
  refine ⟨rfl, rfl, rfl, rfl, rfl, ?_⟩
  rintro ⟨destroyed, _⟩
  cases destroyed

theorem framed_endSocket : Framed stable endSocket := by
  intro state _
  exact ⟨trivial, fun _ => ⟨sameParts_ended state, trivial, fun _ _ _ => trivial⟩⟩

theorem framed_destroySocket : Framed stable destroySocket := by
  intro state _
  exact ⟨trivial, fun _ => ⟨sameParts_destroyed state, trivial⟩⟩

theorem framed_writeToClosed : Framed stable writeToClosed := by
  intro state holds
  refine ⟨trivial, fun _ => ?_⟩
  show (connectionFrame stable).Holds (if !state.destroyed then _ else _) state
  split
  · exact ⟨trivial, fun _ => ⟨sameParts_destroyed state, trivial⟩⟩
  · trivial

theorem framed_writeFailed (lasting : Lasting stable) : Framed stable writeFailed := by
  intro state holds
  refine ⟨trivial, fun _ => ?_⟩
  show (connectionFrame stable).Holds (if !state.writableEnded then _ else if !state.destroyed then _
    else _) state
  split
  · exact framed_endSocket.bind lasting (fun _ => framed_done false) state holds
  · split
    · exact framed_destroySocket.bind lasting (fun _ => framed_done false) state holds
    · trivial

/-- A plain line neither sets the difficulty nor notifies. -/
def Plain (line : Line) : Prop := ∀ state, framedCall state (.writeSocket line)

theorem plain_error (id : Json) (code : StratumErrorCode) (message : String) (data : List Value) :
    Plain (.error id code message data) := fun _ => trivial

theorem framed_write (lasting : Lasting stable) {line : Line} (plain : Plain line) :
    Framed stable (write line) := by
  apply Framed.attempt lasting _ fun _ => framed_writeFailed lasting
  intro state holds
  show (connectionFrame stable).Holds (if !state.destroyed && !state.writableEnded then _ else _) state
  split
  · refine ⟨plain state, fun state' answer holds' => ?_⟩
    exact (framed_ofExcept answer).bind lasting (fun _ => framed_done true) state' holds'
  · exact framed_writeToClosed state holds

theorem framed_reply (lasting : Lasting stable) {line : Line} (plain : Plain line) (value : V) :
    Framed stable (((write line).joined ClientCall.turn).bind fun _ => .done value) :=
  (framed_write lasting plain).joined.bind lasting fun _ => framed_done value

theorem framed_validateMessage (lasting : Lasting stable) {M : Type}
    {validate : ClientProgram (Validated M)} (framed : Framed stable validate) :
    Framed stable (validateMessage validate) := by
  apply framed.bind lasting
  intro validated
  cases validated with
  | valid message => exact framed_done _
  | invalid id errors =>
      have writes := framed_write lasting (plain_error id .otherUnknown "Validation error"
        (errors.map ValidationError.value))
      exact writes.joined.bind lasting fun _ => framed_done _

theorem framed_handleConfigureMessage (lasting : Lasting stable) (fields : Fields) :
    Framed stable (handleConfigureMessage fields) := by
  have validates : Framed stable (validateConfiguration fields) := framed_request fun _ => trivial
  apply (framed_validateMessage lasting validates).joined.bind lasting
  intro validated
  cases validated with
  | error written => exact framed_done written
  | ok configurationMessage =>
      intro state holds
      have same : SameParts state { state with clientConfiguration := some configurationMessage } :=
        ⟨rfl, rfl, rfl, rfl, rfl, id⟩
      refine ⟨same, ?_⟩
      have plain : Plain configurationMessage.response := fun _ => trivial
      exact (framed_write lasting plain).joined _ (lasting.closed _ _ holds same)

theorem framed_destroy (lasting : Lasting stable) : Framed stable destroy := by
  have unsubscribes : Framed stable (Program.load.bind fun state =>
      if state.stratumSubscription then Program.perform ClientCall.unsubscribe else .done ()) := by
    intro state _
    show (connectionFrame stable).Holds (if state.stratumSubscription then _ else _) state
    split
    · exact ⟨trivial, fun _ => trivial⟩
    · trivial
  intro state holds
  unfold destroy
  simp only [Program.bind_eq, Program.load, Program.bind, Frame.Holds]
  cases state.extraNonceAndSessionId with
  | none => exact unsubscribes state holds
  | some sessionId =>
      have deletes : Framed stable ((Program.awaiting (ClientCall.deleteClient sessionId)).bind
          fun deleted => .ofExcept deleted) := framed_request fun _ => trivial
      exact deletes.bind lasting (fun _ => unsubscribes) state holds

theorem Framed.guarded (lasting : Lasting stable) {program : ClientProgram Unit}
    (framed : Framed stable program) : Framed stable (guarded program) :=
  framed.joined.attempt lasting fun _ => framed_endSocket

end Framed

section Submission

variable {state : ClientState} {V : Type}

/-- An assertion stores nothing, so the program goes on in the same state. -/
theorem holds_assert_bind {stable : ClientState → Prop} {asserted : Asserted} {condition : Bool}
    {message : String} {rest : Unit → ClientProgram V}
    (framed : framedCall state (.assert asserted condition))
    (continues : (connectionFrame stable).Holds (rest ()) state) :
    (connectionFrame stable).Holds ((assert asserted condition message).bind rest) state := by
  refine ⟨framed, fun _ => ?_⟩
  cases condition with
  | true => exact continues
  | false => trivial

theorem framed_createEntity : Framed Initialised createEntity := by
  intro state initialised
  apply holds_assert_bind
  · exact ⟨initialised, rfl⟩
  apply holds_assert_bind
  · exact ⟨initialised, rfl⟩
  apply holds_assert_bind
  · exact ⟨initialised, rfl⟩
  refine ⟨trivial, fun startTime => ⟨trivial, fun state' inserted initialised' => ?_⟩⟩
  apply (framed_ofExcept inserted).bind lasting_initialized _ state' initialised'
  intro _ state _
  exact ⟨⟨rfl, rfl, rfl, rfl, rfl, id⟩, trivial⟩

theorem framed_awaitEntity : Framed Initialised awaitEntity := by
  intro state initialised
  unfold awaitEntity
  simp only [Program.bind_eq, Program.load, Program.bind, Frame.Holds]
  split
  · trivial
  · cases state.creatingEntity with
    | some promise =>
        refine ⟨trivial, fun state' result initialised' => ?_⟩
        exact framed_ofExcept result state' initialised'
    | none =>
        have same : SameParts state { state with creatingEntity := some .pending } :=
          ⟨rfl, rfl, rfl, rfl, rfl, id⟩
        refine ⟨same, ?_⟩
        have created : Framed Initialised (Program.attempt
            (createEntity.bind fun _ => .done (Except.ok ())) fun thrown => .done (.error thrown)) := by
          apply Framed.attempt lasting_initialized
          · exact framed_createEntity.bind lasting_initialized fun _ => framed_done _
          · exact fun thrown => framed_done _
        show (connectionFrame Initialised).Holds (Program.bind (Program.attempt _ _) _) _
        have pending : Initialised { state with creatingEntity := some .pending } := initialised
        apply created.bind lasting_initialized _ _ pending
        intro result state initialised
        refine ⟨⟨rfl, rfl, rfl, rfl, rfl, id⟩, trivial, fun state' _ initialised' => ?_⟩
        exact framed_ofExcept result state' initialised'

theorem framed_rollVersion (submission : MiningSubmitMessage) (version : ℕ) :
    Framed Initialised (rollVersion submission version) := by
  intro state initialised
  unfold rollVersion
  simp only [Program.bind_eq, Program.load, Program.bind, Frame.Holds]
  cases state.clientConfiguration with
  | none => trivial
  | some clientConfiguration =>
      show (connectionFrame Initialised).Holds (if clientConfiguration.versionRolling then _ else _) state
      split
      · apply holds_assert_bind
        · trivial
        show (connectionFrame Initialised).Holds (if _ then _ else _) state
        split
        · exact (framed_write lasting_initialized (plain_error _ _ _ _)).joined.bind
            lasting_initialized (fun _ => framed_done _) state initialised
        · trivial
      · trivial

theorem framed_payMiner (submission : MiningSubmitMessage) (extraData : Bytes) (version : Number) :
    Framed Initialised (payMiner submission extraData version) := by
  intro state initialised
  refine ⟨trivial, fun fee => ?_⟩
  apply holds_assert_bind
  · trivial
  simp only [Program.bind_eq, Program.load, Program.bind, Frame.Holds]
  cases authorized : state.clientAuthorization with
  | none => trivial
  | some clientAuthorization =>
      refine ⟨⟨clientAuthorization, authorized, rfl⟩, fun state' answer initialised' => ?_⟩
      apply (framed_ofExcept answer).bind lasting_initialized _ state' initialised'
      intro mintComptokensResult
      split
      · split
        · exact framed_reply lasting_initialized (plain_error _ _ _ _) false
        · exact framed_reply lasting_initialized (plain_error _ _ _ _) false
      · exact framed_done true

theorem framed_submitShare (sha256 : Bytes → Bytes) (submission : MiningSubmitMessage)
    (jobTemplate : JobTemplate) : Framed Initialised (submitShare sha256 submission jobTemplate) := by
  intro state initialised
  apply (framed_rollVersion submission _).bind lasting_initialized _ state initialised
  intro rolled
  cases rolled with
  | error written => exact framed_done written
  | ok version => exact framed_payMiner submission _ version

theorem framed_handleMiningSubmission (sha256 : Bytes → Bytes) (submission : MiningSubmitMessage) :
    Framed Initialised (handleMiningSubmission sha256 submission) := by
  intro state initialised
  apply holds_assert_bind
  · exact ⟨initialised, rfl⟩
  apply framed_awaitEntity.bind lasting_initialized _ state initialised
  intro _ state initialised
  refine ⟨trivial, fun job => ?_⟩
  cases job with
  | none => exact framed_reply lasting_initialized (plain_error _ _ _ _) false state initialised
  | some job =>
      refine ⟨trivial, fun jobTemplate => ?_⟩
      apply holds_assert_bind
      · trivial
      cases jobTemplate with
      | none => trivial
      | some entry =>
          cases entry with
          | inherited => trivial
          | own jobTemplate => exact framed_submitShare sha256 submission jobTemplate state initialised

theorem framed_handleSubmitMessage (sha256 : Bytes → Bytes) (fields : Fields) :
    Framed Initialised (handleSubmitMessage sha256 fields) := by
  have validates : Framed Initialised (validateSubmit fields) := framed_request fun _ => trivial
  apply (framed_validateMessage lasting_initialized validates).joined.bind lasting_initialized
  intro validated
  cases validated with
  | error written => exact framed_done written
  | ok miningSubmitMessage =>
      intro state initialised
      dsimp only
      show (connectionFrame Initialised).Holds (if _ then _ else _) state
      split
      · exact framed_reply lasting_initialized (plain_error _ _ _ _) false state initialised
      · apply (framed_handleMiningSubmission sha256 miningSubmitMessage).joined.bind
          lasting_initialized _ state initialised
        intro result
        cases result with
        | false => exact framed_done false
        | true =>
            have plain : Plain miningSubmitMessage.response := fun _ => trivial
            exact (framed_write lasting_initialized plain).joined

end Submission

end ComptoMiningPool
