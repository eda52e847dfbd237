import ComptoMiningPool.Async.Sequential
import ComptoMiningPool.Client.Connection
import ComptoMiningPool.Client.Submission

/-
This file carries the invariant of one connection through its handlers. It proves that the stratum
starts once and in order, whatever the handlers interleave.
-/

namespace ComptoMiningPool

open JavaScript Async

/-- The microtask after an asynchronous call keeps to the frame. -/
theorem framed_turn (state : ClientState) : (connectionFrame fun _ => True).allowed state .turn := trivial

section Rules

variable {decoder : Decoder} {me : ℕ} {V : Type} {state : ClientState} {trace : ClientTrace}

theorem connection_sound_always (decoder : Decoder) (me : ℕ) :
    (connectionFrame fun _ => True).Sound (connectionContract decoder) me ConnectionInvariant := by
  have sound := connection_sound decoder me lasting_true
  simpa only [and_true] using sound

theorem wp_of_framed {stable : ClientState → Prop} (lasting : Lasting stable)
    {program : ClientProgram V} (framed : Framed stable program) (holds : stable state)
    (kept : ConnectionInvariant state trace) :
    wp (connectionContract decoder) me program (fun _ => ConnectionInvariant) state trace := by
  apply wp_mono _ (Frame.wp_of_holds (connection_sound decoder me lasting) (framed state holds)
    ⟨kept, holds⟩)
  intro _ state trace kept
  exact kept.1

/-- A write that returns `true` has handed its line to an open socket. -/
theorem wp_write {line : Line} {assertion : ClientState → ClientTrace → Prop}
    (sound : (connectionFrame fun _ => True).Sound (connectionContract decoder) me assertion)
    (opened : state.Open → connectionMonitor trace me (.issued (.writeSocket line)) ∧
      assertion state ((me, .issued (.writeSocket line)) :: trace))
    (closed : ¬ state.Open → assertion state trace) :
    wp (connectionContract decoder) me (write line) (fun result state trace => assertion state trace ∧
      (result = .ok true → (me, .issued (.writeSocket line)) ∈ trace)) state trace := by
  unfold write
  rw [wp_attempt]
  show wp (connectionContract decoder) me (if !state.destroyed && !state.writableEnded then _ else _)
    _ state trace
  split
  · rename_i isOpen
    obtain ⟨monitored, issued⟩ := opened (by simpa [ClientState.Open] using isOpen)
    refine ⟨monitored, sound.kept issued, ?_⟩
    intro state' trace' relied extension kept answer _
    have answered := sound.answered (.writeSocket line) answer
      (sound.resumed issued relied extension kept)
    have member : (me, .issued (.writeSocket line)) ∈
        (me, .answered (.writeSocket line) answer) :: trace' :=
      List.mem_cons_of_mem _ (extension.mem List.mem_cons_self)
    refine ⟨answered.1, ?_⟩
    cases answer with
    | ok taken => exact ⟨answered.2, fun _ => member⟩
    | error thrown =>
        -- The line stays in the trace, whatever the failed write does to the socket.
        have recorded := sound.and_mono
          (fun before after grows (member : (me, .issued (.writeSocket line)) ∈ before) => grows member)
        show wp (connectionContract decoder) me writeFailed _ state' _
        apply wp_mono _ (Frame.wp_of_holds recorded (framed_writeFailed lasting_true state' trivial)
          ⟨answered.2, member⟩)
        intro result state trace after
        cases result with
        | ok written => exact ⟨after.1, fun _ => after.2⟩
        | error thrown => exact ⟨after.1, fun _ => after.2⟩
  · rename_i isClosed
    have kept := closed (by simpa [ClientState.Open] using isClosed)
    intro answer _
    have started := sound.called answer kept trivial
    refine ⟨started.1, ?_⟩
    show wp (connectionContract decoder) me (if !state.destroyed then _ else _) _ state _
    split
    · intro answer _
      have destroying := sound.called answer started.2 trivial
      have destroyed := sound.stored destroying.2 (sameParts_destroyed state)
      exact ⟨destroying.1, destroyed.1, destroyed.2, fun impossible => nomatch impossible⟩
    · exact ⟨started.2, fun impossible => nomatch impossible⟩

/-- A write at the end of a handler keeps a sound assertion. -/
theorem wp_write_joined {line : Line} {assertion : ClientState → ClientTrace → Prop}
    (sound : (connectionFrame fun _ => True).Sound (connectionContract decoder) me assertion)
    (opened : state.Open → connectionMonitor trace me (.issued (.writeSocket line)) ∧
      assertion state ((me, .issued (.writeSocket line)) :: trace))
    (closed : ¬ state.Open → assertion state trace) :
    wp (connectionContract decoder) me ((write line).joined .turn) (fun result state trace =>
      assertion state trace ∧ (result = .ok true → (me, .issued (.writeSocket line)) ∈ trace))
        state trace := by
  have recorded : ∀ result : Except Thrown Bool, (connectionFrame fun _ => True).Sound
      (connectionContract decoder) me fun state trace => assertion state trace ∧
        (result = .ok true → (me, .issued (.writeSocket line)) ∈ trace) := by
    intro result
    apply sound.and_mono
    intro before after grows member accepted
    exact grows (member accepted)
  exact Frame.wp_joined_of_sound recorded framed_turn (wp_write sound opened closed)

/-- A message that passes its validation leaves the answer of the validation in the trace. -/
theorem wp_validateMessage {M : Type} {request : ClientCall}
    {result : ClientAnswer request → Except Thrown (Validated M)}
    (framed : ∀ state, framedCall state request) (kept : ConnectionInvariant state trace) :
    wp (connectionContract decoder) me
      ((validateMessage ((Program.awaiting request).bind fun answer => .ofExcept (result answer))).joined
        .turn)
      (fun outcome state trace => ConnectionInvariant state trace ∧ ∀ message,
        outcome = .ok (.ok message) →
          ∃ answer, result answer = .ok (.valid message) ∧ (me, .answered request answer) ∈ trace)
      state trace := by
  have sound := connection_sound_always decoder me
  have recorded : ∀ outcome : Except Thrown (Except Bool M), (connectionFrame fun _ => True).Sound
      (connectionContract decoder) me fun state trace => ConnectionInvariant state trace ∧
        ∀ message, outcome = .ok (.ok message) →
          ∃ answer, result answer = .ok (.valid message) ∧ (me, .answered request answer) ∈ trace := by
    intro outcome
    apply sound.and_mono
    intro before after grows holds message accepted
    obtain ⟨answer, valid, member⟩ := holds message accepted
    exact ⟨answer, valid, grows member⟩
  apply Frame.wp_joined_of_sound recorded framed_turn
  · have issued := sound.issued kept (framed state)
    refine ⟨issued.1, issued.2, ?_⟩
    intro state' trace' relied extension kept' answer _
    have answered := sound.answered request answer kept'
    refine ⟨answered.1, ?_⟩
    show wp _ me ((Program.ofExcept (result answer)).bind _) _ state' _
    cases validated : result answer with
    | error thrown => exact ⟨answered.2, fun _ impossible => nomatch impossible⟩
    | ok decoded =>
        cases decoded with
        | valid message =>
            refine ⟨answered.2, ?_⟩
            intro other same
            cases same
            exact ⟨answer, validated, List.mem_cons_self⟩
        | invalid id errors =>
            show wp _ me (((write _).joined .turn).bind fun written => .done (Except.error written)) _
              state' _
            rw [wp_bind]
            have plain := plain_error id .otherUnknown "Validation error"
              (errors.map ValidationError.value)
            apply wp_mono _ (wp_of_framed lasting_true (framed_write lasting_true plain).joined trivial
              answered.2)
            intro written state trace kept
            cases written with
            | ok written => exact ⟨kept, fun _ impossible => nomatch impossible⟩
            | error thrown => exact ⟨kept, fun _ impossible => nomatch impossible⟩

end Rules

section Handlers

variable {decoder : Decoder} {me : ℕ} {V : Type} {state : ClientState} {trace : ClientTrace}

theorem ConnectionInvariant.startSession (kept : ConnectionInvariant state trace) (start : ℕ)
    (sessionId : String) : ConnectionInvariant { state with
      sessionStart := some start
      extraNonceAndSessionId := some sessionId } trace := by
  have core := kept.core
  refine ⟨⟨?_, core.authorized, fun _ => rfl, core.ready, core.idle, core.single,
    core.difficultyStarted, core.jobsStarted, core.recorded⟩, kept.subscriptionAnswered,
    kept.authorizationAnswered⟩
  intro subscribed
  exact ⟨rfl, (core.subscribed subscribed).2⟩

theorem wp_startSession (kept : ConnectionInvariant state trace) :
    wp (connectionContract decoder) me startSession (fun _ after later =>
      ConnectionInvariant after later ∧ after.extraNonceAndSessionId.isSome ∧ trace ⊆ later)
      state trace := by
  show wp (connectionContract decoder) me (if state.sessionStart.isNone then _ else _) _ state trace
  split
  · intro start _
    refine ⟨trivial, fun initialized => initialized, ?_⟩
    intro randomNumber _
    refine ⟨trivial, fun initialized => initialized, ?_⟩
    have timed : ConnectionInvariant state ((me, .called .now start) :: trace) :=
      kept.quiet ⟨rfl, rfl, rfl, rfl⟩
    have drawn : ConnectionInvariant state
        ((me, .called .randomBytes randomNumber) :: (me, .called .now start) :: trace) :=
      timed.quiet ⟨rfl, rfl, rfl, rfl⟩
    refine ⟨drawn.startSession start (getRandomHexString randomNumber), rfl, ?_⟩
    exact List.Subset.trans (List.subset_cons_self _ _) (List.subset_cons_self _ _)
  · rename_i started
    have session := kept.core.session (by
      simpa [Option.isNone_iff_eq_none, Option.isSome_iff_ne_none] using started)
    exact ⟨kept, session, List.Subset.refl _⟩

theorem ConnectionCore.subscribe (core : ConnectionCore state trace)
    (session : state.extraNonceAndSessionId.isSome) (validated : SubscriptionValidated trace)
    (message : SubscriptionMessage) :
    ConnectionCore { state with clientSubscription := some message } trace := by
  refine ⟨fun _ => ⟨session, validated⟩, core.authorized, core.session, ?_, core.idle, core.single,
    core.difficultyStarted, core.jobsStarted, core.recorded⟩
  intro initialized
  exact ⟨rfl, (core.ready initialized).2⟩

/-- The subscription is stored and answered before the handler waits. -/
theorem wp_handleSubscriptionMessage (fields : Fields) (kept : ConnectionInvariant state trace) :
    wp (connectionContract decoder) me (handleSubscriptionMessage fields)
      (fun _ => ConnectionInvariant) state trace := by
  unfold handleSubscriptionMessage
  rw [Program.bind_eq, wp_bind]
  have validates : ∀ state, framedCall state (.validateSubscription fields) := fun _ => trivial
  apply wp_mono _ (wp_validateMessage validates kept)
  rintro outcome state trace ⟨kept, validated⟩
  match outcome with
  | .error thrown => exact kept
  | .ok (.error written) => exact kept
  | .ok (.ok message) =>
      obtain ⟨answer, rfl, member⟩ := validated message rfl
      show wp _ me (startSession.bind _) _ state trace
      rw [wp_bind]
      apply wp_mono _ (wp_startSession kept)
      rintro result after later ⟨kept, session, grows⟩
      cases result with
      | error thrown => exact kept
      | ok done =>
          have core := kept.core.subscribe session ⟨me, fields, message, grows member⟩ message
          refine ⟨fun initialized => initialized, ?_⟩
          show wp _ me ((write (message.response after.extraNonceAndSessionId)).joined .turn) _ _ later
          apply wp_mono _ (wp_write_joined (connection_sound_always decoder me) _ _)
          · intro result state trace written
            exact written.1
          · intro opened
            refine ⟨trivial, core.quiet ⟨rfl, rfl, rfl, rfl⟩, ?_, ?_⟩
            · intro _ _
              exact ⟨me, fields, message, _, List.mem_cons_of_mem _ (grows member), List.mem_cons_self⟩
            · intro authorized opened
              exact (kept.authorizationAnswered authorized opened).mono (List.subset_cons_self _ _)
          · intro closed
            refine ⟨core, ?_, kept.authorizationAnswered⟩
            intro _ opened
            exact absurd opened closed

theorem ConnectionCore.authorize (core : ConnectionCore state trace)
    (validated : AuthorizationValidated trace) (message : AuthorizationMessage) :
    ConnectionCore { state with clientAuthorization := some message }
      ((me, .called (.authorized message) ()) :: trace) := by
  have grows : trace ⊆ (me, .called (.authorized message) ()) :: trace := List.subset_cons_self _ _
  constructor
  · intro subscribed
    obtain ⟨session, validated⟩ := core.subscribed subscribed
    exact ⟨session, validated.mono grows⟩
  · intro _
    exact validated.mono grows
  · exact core.session
  · intro initialized
    exact ⟨(core.ready initialized).1, rfl⟩
  · intro idle pair member
    rcases List.mem_cons.mp member with rfl | member
    · rfl
    · exact core.idle idle pair member
  · intro first second member member'
    apply core.single first second
    · exact (List.mem_cons.mp member).resolve_left fun same => nomatch same
    · exact (List.mem_cons.mp member').resolve_left fun same => nomatch same
  · intro pair member sets
    rcases List.mem_cons.mp member with rfl | member
    · cases sets
    · exact grows (core.difficultyStarted pair member sets)
  · intro pair member subscribes
    rcases List.mem_cons.mp member with rfl | member
    · cases subscribes
    · obtain ⟨started, difficulty⟩ := core.jobsStarted pair member subscribes
      exact ⟨grows started, difficulty.mono grows⟩
  · rfl

/-- The authorization is stored, recorded, and answered before the handler waits. -/
theorem wp_handleAuthorizationMessage (fields : Fields) (kept : ConnectionInvariant state trace) :
    wp (connectionContract decoder) me (handleAuthorizationMessage fields)
      (fun _ => ConnectionInvariant) state trace := by
  unfold handleAuthorizationMessage
  rw [Program.bind_eq, wp_bind]
  have validates : ∀ state, framedCall state (.validateAuthorization fields) := fun _ => trivial
  apply wp_mono _ (wp_validateMessage validates kept)
  rintro outcome state trace ⟨kept, validated⟩
  match outcome with
  | .error thrown => exact kept
  | .ok (.error written) => exact kept
  | .ok (.ok message) =>
      obtain ⟨answer, rfl, member⟩ := validated message rfl
      have core : ConnectionCore { state with clientAuthorization := some message }
          ((me, .called (.authorized message) ()) :: trace) :=
        kept.core.authorize ⟨me, fields, message, member⟩ message
      refine ⟨fun initialized => initialized, ?_⟩
      intro recorded _
      refine ⟨⟨fields, member⟩, ?_⟩
      show wp _ me ((write message.response).joined .turn) _ _ _
      apply wp_mono _ (wp_write_joined (connection_sound_always decoder me) _ _)
      · intro result state trace written
        exact written.1
      · intro opened
        refine ⟨trivial, core.quiet ⟨rfl, rfl, rfl, rfl⟩, ?_, ?_⟩
        · intro subscribed opened
          apply (kept.subscriptionAnswered subscribed opened).mono
          exact List.Subset.trans (List.subset_cons_self _ _) (List.subset_cons_self _ _)
        · intro _ _
          refine ⟨me, fields, message, ?_, List.mem_cons_self⟩
          exact List.mem_cons_of_mem _ (List.mem_cons_of_mem _ member)
      · intro closed
        refine ⟨core, ?_, ?_⟩
        · intro subscribed opened
          exact (kept.subscriptionAnswered subscribed opened).mono (List.subset_cons_self _ _)
        · intro _ opened
          exact absurd opened closed

/-- The first start marks the connection. -/
theorem ConnectionCore.start (core : ConnectionCore state trace)
    (fresh : state.stratumInitialized = false) (subscribed : state.clientSubscription.isSome)
    (authorized : state.clientAuthorization.isSome) :
    ConnectionCore { state with stratumInitialized := true }
      ((me, .called .initializing ()) :: trace) := by
  have grows : trace ⊆ (me, .called .initializing ()) :: trace := List.subset_cons_self _ _
  have first : ∀ {thread}, (thread, .called .initializing ()) ∈
      (me, .called .initializing ()) :: trace → thread = me := by
    intro thread member
    rcases List.mem_cons.mp member with same | member
    · cases same
      rfl
    · have idle := core.idle fresh _ member
      cases idle
  constructor
  · intro subscribed
    obtain ⟨session, validated⟩ := core.subscribed subscribed
    exact ⟨session, validated.mono grows⟩
  · intro authorized
    exact (core.authorized authorized).mono grows
  · exact core.session
  · intro _
    exact ⟨subscribed, authorized⟩
  · intro impossible
    cases impossible
  · intro one other member member'
    rw [first member, first member']
  · intro pair member sets
    rcases List.mem_cons.mp member with rfl | member
    · cases sets
    · exact grows (core.difficultyStarted pair member sets)
  · intro pair member subscribes
    rcases List.mem_cons.mp member with rfl | member
    · cases subscribes
    · obtain ⟨started, difficulty⟩ := core.jobsStarted pair member subscribes
      exact ⟨grows started, difficulty.mono grows⟩
  · exact core.recorded

/-- An assertion whose condition holds only adds its event. -/
theorem wp_assert_bind {asserted : Asserted} {condition : Bool} {message : String}
    {rest : Unit → ClientProgram V} {post : Post ClientState ClientAnswer Thrown V ClientTask}
    (holds : condition = true)
    (continues : wp (connectionContract decoder) me (rest ()) post state
      ((me, .called (.assert asserted condition) ()) :: trace)) :
    wp (connectionContract decoder) me ((assert asserted condition message).bind rest) post state
      trace := by
  intro answer _
  refine ⟨fun _ => holds, ?_⟩
  subst holds
  exact continues

/-- A thread that has started the stratum and has not subscribed to the jobs. -/
def Starting (me : ℕ) (trace : ClientTrace) : Prop :=
  (me, .called .initializing ()) ∈ trace ∧ (me, .called .subscribeNewMiningJob ()) ∉ trace

theorem starting_sound (decoder : Decoder) (me : ℕ) :
    (connectionFrame fun _ => True).Sound (connectionContract decoder) me fun state trace =>
      ConnectionInvariant state trace ∧ Starting me trace := by
  have other : ∀ {event : ClientEvent} {trace : ClientTrace}, Starting me trace →
      event ≠ .called .subscribeNewMiningJob () → Starting me ((me, event) :: trace) := by
    intro event trace starting different
    refine ⟨List.mem_cons_of_mem _ starting.1, ?_⟩
    intro member
    rcases List.mem_cons.mp member with same | member
    · exact different (Prod.mk.inj same).2.symm
    · exact starting.2 member
  apply (connection_sound_always decoder me).and_own
  · intro state request answer trace framed starting
    apply other starting
    rintro same
    cases same
    exact framed.elim
  · intro state request trace _ starting
    exact other starting fun same => nomatch same
  · intro request answer trace starting
    exact other starting fun same => nomatch same
  · intro trace later starting extension
    exact ⟨extension.mem starting.1, fun member => starting.2 (extension.mem_of_mine member)⟩

/-- No thread other than the starting one has subscribed to the jobs. -/
theorem Starting.no_jobs (starting : Starting me trace) (core : ConnectionCore state trace) :
    ∀ pair ∈ trace, ClientEvent.subscribesJobs pair.2 = false := by
  rintro ⟨thread, event⟩ member
  cases subscribes : ClientEvent.subscribesJobs event with
  | false => rfl
  | true =>
      have same := core.single thread me (core.jobsStarted _ member subscribes).1 starting.1
      subst same
      have event_eq : event = .called .subscribeNewMiningJob () := by
        unfold ClientEvent.subscribesJobs at subscribes
        split at subscribes
        · rfl
        · cases subscribes
      subst event_eq
      exact absurd member starting.2

/-- The connection is marked as started, and no difficulty has been handed over. -/
structure BeforeDifficulty (me : ℕ) (state : ClientState) (trace : ClientTrace) : Prop where
  kept : ConnectionInvariant state trace
  initialised : Initialised state
  starting : Starting me trace
  unset : ∀ pair ∈ trace, ClientEvent.setsDifficulty pair.2 = false

theorem BeforeDifficulty.quiet (before : BeforeDifficulty me state trace) {event : ClientEvent}
    (quiet : ClientEvent.Quiet event) : BeforeDifficulty me state ((me, event) :: trace) := by
  refine ⟨before.kept.quiet quiet, before.initialised, ⟨?_, ?_⟩, ?_⟩
  · exact List.mem_cons_of_mem _ before.starting.1
  · intro member
    rcases List.mem_cons.mp member with same | member
    · cases same
      cases quiet.2.2.1
    · exact before.starting.2 member
  · intro pair member
    rcases List.mem_cons.mp member with rfl | member
    · exact quiet.2.1
    · exact before.unset pair member

/-- The starting thread hands over the only difficulty and then subscribes once. -/
theorem wp_setDifficultyAndSubscribe (difficulty : Number) (before : BeforeDifficulty me state trace) :
    wp (connectionContract decoder) me (setDifficultyAndSubscribe difficulty)
      (fun _ => ConnectionInvariant) state trace := by
  have sound := starting_sound decoder me
  obtain ⟨kept, initialised, starting, unset⟩ := before
  obtain ⟨subscribed, authorized⟩ := kept.core.ready initialised
  unfold setDifficultyAndSubscribe
  rw [Program.bind_eq, wp_bind]
  apply wp_mono _ (wp_write_joined sound _ fun _ => ⟨kept, starting⟩)
  · rintro result state trace ⟨⟨kept, starting⟩, handed⟩
    match result with
    | .error thrown => exact kept
    | .ok false => exact kept
    | .ok true =>
        have difficulty : DifficultySet trace := ⟨_, handed rfl, rfl⟩
        intro answer _
        refine ⟨starting.no_jobs kept.core, fun initialized => initialized, ?_⟩
        have grows : trace ⊆ (me, .called .subscribeNewMiningJob answer) :: trace :=
          List.subset_cons_self _ _
        have subscribing : ConnectionInvariant state
            ((me, .called .subscribeNewMiningJob answer) :: trace) := by
          refine ⟨kept.core.cons rfl rfl (fun sets => nomatch sets) fun _ => ⟨starting.1, difficulty⟩,
            ?_, ?_⟩
          · intro subscribed opened
            exact (kept.subscriptionAnswered subscribed opened).mono grows
          · intro authorized opened
            exact (kept.authorizationAnswered authorized opened).mono grows
        exact subscribing.same ⟨rfl, rfl, rfl, rfl, rfl, id⟩
  · intro opened
    have answered := kept.subscriptionAnswered subscribed opened
    have answered' := kept.authorizationAnswered authorized opened
    have grows : trace ⊆ (me, .issued (.writeSocket (.setDifficulty difficulty))) :: trace :=
      List.subset_cons_self _ _
    refine ⟨⟨unset, answered, answered'⟩, ⟨?_, ?_, ?_⟩, List.mem_cons_of_mem _ starting.1, ?_⟩
    · exact kept.core.cons rfl rfl (fun _ => starting.1) fun subscribes => nomatch subscribes
    · exact fun _ _ => answered.mono grows
    · exact fun _ _ => answered'.mono grows
    · intro member
      rcases List.mem_cons.mp member with same | member
      · cases same
      · exact starting.2 member

/-- A connection that starts its stratum has both parts and has never started it before. -/
theorem wp_initStratum (kept : ConnectionInvariant state trace)
    (subscribed : state.clientSubscription.isSome) (authorized : state.clientAuthorization.isSome)
    (fresh : state.stratumInitialized = false) :
    wp (connectionContract decoder) me initStratum (fun _ => ConnectionInvariant) state trace := by
  have marked : BeforeDifficulty me { state with stratumInitialized := true }
      ((me, .called .initializing ()) :: trace) := by
    have grows : trace ⊆ (me, .called .initializing ()) :: trace := List.subset_cons_self _ _
    refine ⟨⟨kept.core.start fresh subscribed authorized, ?_, ?_⟩, rfl, ⟨List.mem_cons_self, ?_⟩, ?_⟩
    · intro subscribed opened
      exact (kept.subscriptionAnswered subscribed opened).mono grows
    · intro authorized opened
      exact (kept.authorizationAnswered authorized opened).mono grows
    · intro member
      rcases List.mem_cons.mp member with same | member
      · cases same
      · cases kept.core.idle fresh _ (kept.core.jobsStarted _ member rfl).1
    · intro pair member
      rcases List.mem_cons.mp member with rfl | member
      · rfl
      · cases sets : ClientEvent.setsDifficulty pair.2 with
        | false => rfl
        | true => cases kept.core.idle fresh _ (kept.core.difficultyStarted pair member sets)
  intro answer _
  refine ⟨⟨kept.core.idle fresh, (kept.core.subscribed subscribed).2,
    kept.core.authorized authorized⟩, ?_⟩
  apply wp_assert_bind subscribed
  apply wp_assert_bind authorized
  refine ⟨fun initialized => rfl, ?_⟩
  intro cluster _
  refine ⟨trivial, ?_⟩
  intro rawDifficulty _
  refine ⟨trivial, ?_⟩
  apply wp_setDifficultyAndSubscribe
  -- Two assertions and two reads of the configuration lie between the mark and the difficulty.
  apply BeforeDifficulty.quiet _ ⟨rfl, rfl, rfl, rfl⟩
  apply BeforeDifficulty.quiet _ ⟨rfl, rfl, rfl, rfl⟩
  apply BeforeDifficulty.quiet _ ⟨rfl, rfl, rfl, rfl⟩
  exact marked.quiet ⟨rfl, rfl, rfl, rfl⟩

theorem wp_startWhenReady (kept : ConnectionInvariant state trace) :
    wp (connectionContract decoder) me startWhenReady (fun _ => ConnectionInvariant) state trace := by
  show wp _ me (if state.clientSubscription.isSome && state.clientAuthorization.isSome &&
    !state.stratumInitialized then _ else _) _ state trace
  split
  · rename_i ready
    simp only [Bool.and_eq_true, Bool.not_eq_true'] at ready
    have sound : ∀ _ : Except Thrown Unit, (connectionFrame fun _ => True).Sound
        (connectionContract decoder) me ConnectionInvariant := fun _ => connection_sound_always decoder me
    exact Frame.wp_joined_of_sound sound framed_turn (wp_initStratum kept ready.1.1 ready.1.2 ready.2)
  · exact kept

/-- A notify line follows the difficulty, because only a subscribed connection receives templates. -/
theorem wp_sendNewMiningJob (template : JobTemplate) (kept : ConnectionInvariant state trace)
    (difficulty : DifficultySet trace) :
    wp (connectionContract decoder) me (sendNewMiningJob template) (fun _ => ConnectionInvariant)
      state trace := by
  intro job _
  have added : ConnectionInvariant state ((me, .called (.addJob template) job) :: trace) :=
    kept.quiet ⟨rfl, rfl, rfl, rfl⟩
  refine ⟨trivial, ?_⟩
  show wp _ me ((Program.ofExcept (MiningJob.response job template)).bind _) _ state _
  cases built : MiningJob.response job template with
  | error thrown => exact added
  | ok line =>
      obtain ⟨params, rfl, _⟩ := MiningJob.response_ok built
      show wp _ me (((write (.notify params)).joined .turn).bind _) _ state _
      rw [wp_bind]
      apply wp_mono _ (wp_write_joined (connection_sound_always decoder me) _ fun _ => added)
      · rintro result state trace ⟨kept, _⟩
        cases result with
        | error thrown => exact kept
        | ok written => exact kept
      · intro _
        exact ⟨difficulty.mono (List.subset_cons_self _ _), added.quiet ⟨rfl, rfl, rfl, rfl⟩⟩

/-- Every kept handler stays kept when its caller joins it. -/
theorem wp_joined_of_kept {program : ClientProgram V}
    (holds : wp (connectionContract decoder) me program (fun _ => ConnectionInvariant) state trace) :
    wp (connectionContract decoder) me (program.joined .turn) (fun _ => ConnectionInvariant) state trace :=
  Frame.wp_joined_of_sound (fun _ => connection_sound_always decoder me) framed_turn holds

theorem wp_guarded {program : ClientProgram Unit}
    (holds : wp (connectionContract decoder) me program (fun _ => ConnectionInvariant) state trace) :
    wp (connectionContract decoder) me (guarded program) (fun _ => ConnectionInvariant) state trace := by
  unfold guarded
  rw [wp_attempt]
  apply wp_mono _ (wp_joined_of_kept holds)
  intro result state trace kept
  cases result with
  | ok done => exact kept
  | error thrown => exact wp_of_framed lasting_true framed_endSocket trivial kept

theorem wp_dispatch (sha256 : Bytes → Bytes) (method : Option RequestMethod) (fields : Fields)
    (kept : ConnectionInvariant state trace) :
    wp (connectionContract decoder) me (dispatch sha256 method fields) (fun _ => ConnectionInvariant)
      state trace := by
  match method with
  | none => exact kept
  | some .suggestDifficulty => exact kept
  | some .subscribe => exact wp_joined_of_kept (wp_handleSubscriptionMessage fields kept)
  | some .authorize => exact wp_joined_of_kept (wp_handleAuthorizationMessage fields kept)
  | some .configure =>
      exact wp_of_framed lasting_true (framed_handleConfigureMessage lasting_true fields).joined trivial
        kept
  | some .submit =>
      show wp _ me (if !state.stratumInitialized then _ else _) _ state trace
      split
      · exact wp_of_framed lasting_true (framed_endSocket.bind lasting_true fun _ => framed_done false)
          trivial kept
      · rename_i initialised
        exact wp_of_framed lasting_initialized (framed_handleSubmitMessage sha256 fields).joined
          (by simpa [Initialised] using initialised) kept

theorem wp_handleMessage (sha256 : Bytes → Bytes) (line : Option Json)
    (kept : ConnectionInvariant state trace) :
    wp (connectionContract decoder) me (handleMessage sha256 line) (fun _ => ConnectionInvariant)
      state trace := by
  cases line with
  | none => exact wp_of_framed lasting_true framed_endSocket trivial kept
  | some parsedMessage =>
      show wp _ me ((Program.ofExcept (Value.field (some parsedMessage) "method")).bind _) _ state trace
      cases Value.field (some parsedMessage) "method" with
      | error thrown => exact kept
      | ok method =>
          show wp _ me ((dispatch sha256 _ _).bind _) _ state trace
          rw [wp_bind]
          apply wp_mono _ (wp_dispatch sha256 _ _ kept)
          intro result state trace kept
          match result with
          | .error thrown => exact kept
          | .ok false => exact kept
          | .ok true => exact wp_startWhenReady kept

end Handlers

theorem connectionInvariant_initial : ConnectionInvariant {} [] := by
  refine ⟨⟨?_, ?_, ?_, ?_, ?_, ?_, ?_, ?_, rfl⟩, ?_, ?_⟩ <;> simp

/-- The contract holds for every number of lines, templates, and closings of the socket. -/
theorem connectionContract_proved (sha256 : Bytes → Bytes) (decoder : Decoder) :
    (connectionContract decoder).Proved (clientSemantics sha256 decoder) {} where
  sameAnswers := rfl
  relyRefl _ := id
  relyTrans _ _ _ first second initialized := second (first initialized)
  initially := connectionInvariant_initial
  starts := by
    intro state trace me task kept enabled _
    have started : ConnectionInvariant state ((me, .started task) :: trace) :=
      kept.quiet ⟨rfl, rfl, rfl, rfl⟩
    refine ⟨trivial, ?_⟩
    cases task with
    | line message => exact wp_guarded (wp_handleMessage sha256 message started)
    | destroy => exact wp_of_framed lasting_true (framed_destroy lasting_true) trivial started
    | newMiningJob template =>
        obtain ⟨thread, subscribed⟩ := enabled
        have difficulty := (kept.core.jobsStarted _ subscribed rfl).2
        exact wp_guarded (wp_sendNewMiningJob template started
          (difficulty.mono (List.subset_cons_self _ _)))
  disturbed := by
    rintro state state' trace kept ⟨destroyed, writableEnded, rfl⟩
    refine ⟨id, kept.same ⟨rfl, rfl, rfl, rfl, rfl, ?_⟩⟩
    rintro ⟨undestroyed, writable⟩
    rw [Bool.or_eq_false_iff] at undestroyed writable
    exact ⟨undestroyed.1, writable.1⟩

def ClientEvent.notifies : ClientEvent → Bool
  | .issued (.writeSocket (.notify _)) => true
  | _ => false

/-- The stratum starts once and after both validations. Both responses precede the only difficulty,
the difficulty precedes every notify line, the job stream is subscribed once, and no assertion about
the parts of the connection fails. -/
structure OrderlyStartup (trace : ClientTrace) : Prop where
  startsOnce : (trace.countP fun pair => ClientEvent.initializes pair.2) ≤ 1
  startsValidated : Accepted (fun earlier _ event => ClientEvent.initializes event = true →
    SubscriptionValidated earlier ∧ AuthorizationValidated earlier) trace
  difficultyOnce : (trace.countP fun pair => ClientEvent.setsDifficulty pair.2) ≤ 1
  answersFirst : Accepted (fun earlier _ event => ClientEvent.setsDifficulty event = true →
    SubscriptionAnswered earlier ∧ AuthorizationAnswered earlier) trace
  notifiesLast : Accepted (fun earlier _ event => ClientEvent.notifies event = true →
    DifficultySet earlier) trace
  subscribesOnce : (trace.countP fun pair => ClientEvent.subscribesJobs pair.2) ≤ 1
  assertsParts : ∀ me asserted holds answer, (me, .called (.assert asserted holds) answer) ∈ trace →
    asserted ∈ connectionParts → holds = true

/-- A monitored trace starts in order. -/
theorem orderlyStartup_of_accepted {trace : ClientTrace} (accepted : Accepted connectionMonitor trace) :
    OrderlyStartup trace := by
  have initializing : ∀ {earlier me} {event : ClientEvent}, connectionMonitor earlier me event →
      ClientEvent.initializes event = true →
        (∀ pair ∈ earlier, ClientEvent.initializes pair.2 = false) ∧
          SubscriptionValidated earlier ∧ AuthorizationValidated earlier := by
    intro earlier me event monitored initializes
    unfold ClientEvent.initializes at initializes
    split at initializes
    · exact monitored
    · cases initializes
  have difficulty : ∀ {earlier me} {event : ClientEvent}, connectionMonitor earlier me event →
      ClientEvent.setsDifficulty event = true →
        (∀ pair ∈ earlier, ClientEvent.setsDifficulty pair.2 = false) ∧
          SubscriptionAnswered earlier ∧ AuthorizationAnswered earlier := by
    intro earlier me event monitored sets
    unfold ClientEvent.setsDifficulty at sets
    split at sets
    · exact monitored
    · cases sets
  have notifying : ∀ (earlier : ClientTrace) (me : ℕ) (event : ClientEvent),
      connectionMonitor earlier me event → ClientEvent.notifies event = true → DifficultySet earlier := by
    intro earlier me event monitored notifies
    unfold ClientEvent.notifies at notifies
    split at notifies
    · exact monitored
    · cases notifies
  have subscribing : ∀ (earlier : ClientTrace) (me : ℕ) (event : ClientEvent),
      connectionMonitor earlier me event → ClientEvent.subscribesJobs event = true →
        ∀ pair ∈ earlier, ClientEvent.subscribesJobs pair.2 = false := by
    intro earlier me event monitored subscribes
    unfold ClientEvent.subscribesJobs at subscribes
    split at subscribes
    · exact monitored
    · cases subscribes
  constructor
  · apply countP_le_one_of_accepted
    exact accepted.mono fun _ _ _ monitored initializes => (initializing monitored initializes).1
  · exact accepted.mono fun _ _ _ monitored initializes => (initializing monitored initializes).2
  · apply countP_le_one_of_accepted
    exact accepted.mono fun _ _ _ monitored sets => (difficulty monitored sets).1
  · exact accepted.mono fun _ _ _ monitored sets => (difficulty monitored sets).2
  · exact accepted.mono notifying
  · apply countP_le_one_of_accepted
    exact accepted.mono subscribing
  · intro me asserted holds answer member part
    obtain ⟨earlier, _, monitored⟩ := accepted.of_mem member
    exact monitored part

/-- Every interleaving of the handlers of one connection starts in order. -/
theorem connection_startup_orderly (sha256 : Bytes → Bytes) (decoder : Decoder)
    {system : System ClientState ClientAnswer Thrown Unit ClientTask}
    (reached : Reachable (clientSemantics sha256 decoder) {} system) : OrderlyStartup system.trace :=
  orderlyStartup_of_accepted ((connectionContract_proved sha256 decoder).reachable reached).2

def ClientCall.awaitsPromise : ClientCall → Bool
  | .creatingEntity => true
  | _ => false

/-- Every answer of the outcomes is admitted, except the answer of another thread's promise. -/
theorem SubmitOutcomes.admitted (outcomes : SubmitOutcomes) (me : ℕ) (history : ClientHistory)
    (state : ClientState) (trace : ClientTrace) (call : ClientCall) (other : call.awaitsPromise = false) :
    clientAdmits (stratumDecoder fun _ => true) me state trace call
      (outcomes.environment history call) := by
  cases call with
  | creatingEntity => cases other
  | validateSubscription fields => rfl
  | validateConfiguration fields => rfl
  | validateAuthorization fields => rfl
  | validateSubmit fields => rfl
  | _ => trivial

def requestTask (id : ℕ) (method : RequestMethod) (params : List Json) : ClientTask :=
  .line (some (.object [("id", .number (.ofNat id)), ("method", .string method.text),
    ("params", .array params)]))

/-- One connection authorizes a worker of each of two addresses and submits for the first one. -/
def miningSession : List ClientTask :=
  [requestTask 1 .subscribe [.string "miner"],
    requestTask 2 .configure [.array [.string "version-rolling"],
      .object [("version-rolling.mask", .string "1fffe000"),
        ("version-rolling.min-bit-count", .number 2)]],
    requestTask 3 .authorize [.string "first.worker1", .string "x"],
    requestTask 4 .authorize [.string "second.worker2", .string "x"],
    requestTask 5 .submit [.string "worker1", .string "2", .string "00000000", .string "0",
      .string "00000000", .string "6000"]]

def sessionSystem : System ClientState ClientAnswer Thrown Unit ClientTask :=
  miningSession.foldl (System.after (clientSemantics id (stratumDecoder fun _ => true))
    acceptingOutcomes.environment) ⟨{}, [], []⟩

theorem sessionSystem_reachable :
    Reachable (clientSemantics id (stratumDecoder fun _ => true)) {} sessionSystem := by
  have quiet : ∀ pair ∈ sessionSystem.trace,
      pair.2.Asks fun call => call.awaitsPromise = false := by
    decide +kernel
  have enabled : ∀ task ∈ miningSession, ∀ (state : ClientState) (trace : ClientTrace),
      (clientSemantics id (stratumDecoder fun _ => true)).mayStart state trace task := by
    intro task member state trace
    fin_cases member <;> trivial
  exact Reachable.afterAll acceptingOutcomes.admitted .refl enabled quiet

/-- A session that sets its difficulty has started in order. -/
theorem connection_startup_orderly_session :
    (sessionSystem.trace.countP fun pair => ClientEvent.setsDifficulty pair.2) = 1 ∧
      OrderlyStartup sessionSystem.trace :=
  ⟨by decide +kernel, connection_startup_orderly _ _ sessionSystem_reachable⟩

end ComptoMiningPool
