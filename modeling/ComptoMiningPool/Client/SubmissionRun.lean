import ComptoMiningPool.Client.Submitting

/-
This file carries the contract of the submissions through the handlers of a connection.
-/

namespace ComptoMiningPool

open JavaScript Async

section Handlers

variable {sha256 : Bytes → Bytes} {decoder : Decoder} {me : ℕ} {V : Type} {state : ClientState}
  {trace : ClientTrace} {progress : SubmitProgress}

theorem ordinaryCall (request : ClientCall) (ordinary : request.Ordinary) : request.Ordinary := ordinary

theorem ordinary_answer {line : Line} (plain : (ClientCall.writeSocket line).Ordinary) :
    OrdinaryProgram ((write line).joined ClientCall.turn) :=
  covers_answer sameSubmission_of_store ordinaryCall plain

/-- The first draw of a session id begins the session. -/
theorem SubmissionCore.startSession (core : SubmissionCore state trace) (unbegun : state.sessionStart = none)
    (start : ℕ) (randomNumber : BitVec 32) :
    SubmissionCore { state with
      sessionStart := some start
      extraNonceAndSessionId := some (getRandomHexString randomNumber) }
      ((me, .called .randomBytes randomNumber) :: trace) := by
  have absent : state.extraNonceAndSessionId = none := by
    have begun := core.begun
    rw [unbegun] at begun
    exact Option.isSome_eq_false_iff.mp begun.symm |> Option.isNone_iff_eq_none.mp
  have fresh : sessionIds trace = [] := by
    rw [core.session, absent]
    rfl
  have quiet : ClientEvent.touchesEntity (.called .randomBytes randomNumber) = false := rfl
  constructor
  · change getRandomHexString randomNumber :: sessionIds trace = [getRandomHexString randomNumber]
    rw [fresh]
  · rfl
  · intro uncreated
    refine ⟨(core.untouched uncreated).1, ?_⟩
    intro pair member
    rcases List.mem_cons.mp member with rfl | older
    · exact quiet
    · exact (core.untouched uncreated).2 pair older
  · intro first firstMember second secondMember firstTouches secondTouches
    rcases List.mem_cons.mp firstMember with rfl | firstOlder
    · cases firstTouches
    · rcases List.mem_cons.mp secondMember with rfl | secondOlder
      · cases secondTouches
      · exact core.single first firstOlder second secondOlder firstTouches secondTouches
  · rw [entityInserted_cons quiet]
    exact core.inserted
  · rw [entityInserted_cons quiet, entityRejected_cons quiet]
    exact core.exclusive
  · exact core.settled
  · exact fun thrown rejected => (core.refused thrown rejected).mono (List.subset_cons_self _ _)
  · exact fun _ => rfl
  · intro configuration configured
    obtain ⟨other, fields, member⟩ := core.configured configuration configured
    exact ⟨other, fields, List.mem_cons_of_mem _ member⟩

/-- The session has an id once it has begun. -/
theorem wp_beginSession (steady : Steady me progress state trace) :
    wp (submissionContract sha256 decoder) me startSession (fun _ after later =>
      Steady me progress after later ∧ after.extraNonceAndSessionId.isSome) state trace := by
  show wp _ me (if state.sessionStart.isNone then _ else _) _ state trace
  split
  · rename_i unbegun
    intro start _
    have timed : Steady me progress state ((me, .called .now start) :: trace) :=
      steady.called .now start trivial
    refine ⟨steady.monitor_called .now start trivial, trivial, ?_⟩
    intro randomNumber _
    have absent := Option.isNone_iff_eq_none.mp unbegun
    have core := @SubmissionCore.startSession me _ _ timed.core absent start randomNumber
    have undrawn : sessionIds ((me, .called .now start) :: trace) = [] := by
      have begun := timed.core.begun
      rw [absent] at begun
      rw [timed.core.session, Option.isNone_iff_eq_none.mp (Option.isSome_eq_false_iff.mp begun.symm)]
      rfl
    refine ⟨⟨continuesLookup_of_found timed.found trivial, undrawn⟩, trivial, ?_, rfl⟩
    apply Steady.of_called core rfl _ timed.resumed
    rw [submitProgress_cons, timed.progressed]
    rfl
  · rename_i begun
    refine ⟨steady, ?_⟩
    rw [← steady.core.begun]
    simpa [Option.isNone_iff_eq_none, Option.isSome_iff_ne_none] using begun

/-- Each response to a subscription carries the session id. -/
theorem wp_subscribe (fields : Fields) (steady : Steady me progress state trace) :
    wp (submissionContract sha256 decoder) me (handleSubscriptionMessage fields)
      (fun _ => Resting me) state trace := by
  unfold handleSubscriptionMessage
  rw [Program.bind_eq, wp_bind]
  have validates : OrdinaryProgram (validateSubscription fields) := covers_request trivial
  have validated := (covers_validateMessage sameSubmission_of_store ordinaryCall validates).joined
    ordinaryFrame_turn
  apply wp_mono _ (wp_of_ordinary validated steady)
  intro outcome state trace steady
  cases outcome with
  | error thrown => exact ⟨progress, steady⟩
  | ok outcome =>
      cases outcome with
      | error written => exact ⟨progress, steady⟩
      | ok message =>
          show wp _ me (startSession.bind _) _ state trace
          rw [wp_bind]
          apply wp_mono _ (wp_beginSession steady)
          rintro result after later ⟨steady, named⟩
          cases result with
          | error thrown => exact ⟨progress, steady⟩
          | ok done =>
              obtain ⟨sessionId, stored⟩ := Option.isSome_iff_exists.mp named
              have subscribed : Steady me progress { after with clientSubscription := some message } later :=
                steady.same ⟨rfl, rfl, rfl, rfl, rfl⟩
              refine ⟨trivial, ?_⟩
              show wp _ me ((write (message.response after.extraNonceAndSessionId)).joined .turn) _ _ later
              rw [stored]
              have drawn : sessionIds later = [sessionId] := by
                rw [steady.core.session, stored]
                rfl
              have monitored : submissionMonitor sha256 later me
                  (.issued (.writeSocket (message.response (some sessionId)))) :=
                ⟨continuesLookup_of_found steady.found trivial, sessionId, drawn, rfl⟩
              apply wp_mono _ (wp_reply_first ⟨monitored, subscribed.issued ⟨rfl, rfl, rfl, rfl⟩⟩
                ⟨steady.monitor_called .startDestroy () trivial, subscribed.called .startDestroy () trivial⟩
                steady.progressed)
              intro result state trace steady
              exact ⟨progress, steady⟩

/-- A validated configuration is stored. -/
theorem SubmissionCore.configure (core : SubmissionCore state trace) {configuration : ConfigurationMessage}
    {fields : Fields} {index : ℕ}
    (member : (index, .answered (.validateConfiguration fields) (.ok (.valid configuration))) ∈ trace) :
    SubmissionCore { state with clientConfiguration := some configuration } trace := by
  refine ⟨core.session, core.begun, core.untouched, core.single, core.inserted, core.exclusive,
    core.settled, core.refused, core.named, ?_⟩
  intro other stored
  obtain rfl := Option.some.inj stored
  exact ⟨index, fields, member⟩

theorem wp_configure (fields : Fields) (steady : Steady me progress state trace) :
    wp (submissionContract sha256 decoder) me (handleConfigureMessage fields)
      (fun _ => Resting me) state trace := by
  unfold handleConfigureMessage
  rw [Program.bind_eq, wp_bind]
  apply wp_mono _ (wp_validated (.validateConfiguration fields) (fun answer => answer) steady
    (steady.monitor_issued (.validateConfiguration fields) trivial) ⟨rfl, rfl, rfl, rfl⟩ fun _ =>
      ⟨rfl, rfl, rfl, rfl⟩)
  rintro outcome state trace ⟨answer, steady, validated, member⟩
  cases outcome with
  | error thrown => exact ⟨_, steady⟩
  | ok outcome =>
      cases outcome with
      | error written => exact ⟨_, steady⟩
      | ok configuration =>
          obtain rfl := validated configuration rfl
          have configured : Steady me progress { state with clientConfiguration := some configuration } trace :=
            ⟨⟨steady.core.configure member, steady.found, steady.awake, steady.progressed⟩, steady.resumed⟩
          refine ⟨trivial, ?_⟩
          show wp _ me ((write configuration.response).joined .turn) _ _ trace
          have answers : OrdinaryProgram ((write configuration.response).joined ClientCall.turn) :=
            ordinary_answer trivial
          apply wp_mono _ (wp_of_ordinary answers configured)
          intro result state trace steady
          exact ⟨progress, steady⟩

/-- The teardown deletes the row of the session. -/
theorem wp_destroy (steady : Steady me progress state trace) :
    wp (submissionContract sha256 decoder) me destroy (fun _ => Resting me) state trace := by
  have unsubscribes : OrdinaryProgram (Program.load.bind fun state =>
      if state.stratumSubscription then Program.perform ClientCall.unsubscribe else .done ()) := by
    apply Frame.covers_load
    intro state
    split
    · exact Frame.covers_perform fun _ => trivial
    · exact Frame.covers_done ()
  unfold destroy
  simp only [Program.bind_eq, Program.load, Program.bind]
  rw [wp]
  cases stored : state.extraNonceAndSessionId with
  | none => exact wp_of_resting unsubscribes ⟨progress, steady⟩
  | some sessionId =>
      have drawn : sessionIds trace = [sessionId] := by
        rw [steady.core.session, stored]
        rfl
      have monitored : submissionMonitor sha256 trace me (.issued (.deleteClient sessionId)) :=
        ⟨continuesLookup_of_found steady.found trivial, drawn⟩
      refine wp_await monitored (steady.issued ⟨rfl, rfl, rfl, rfl⟩) steady.progressed
        (fun _ => ⟨rfl, rfl, rfl, rfl⟩) ?_
      intro state' trace' deleted _ _ _ steady
      have rest : OrdinaryProgram ((Program.ofExcept deleted).bind fun _ => Program.load.bind fun state =>
          if state.stratumSubscription then Program.perform ClientCall.unsubscribe else .done ()) :=
        covers_bind (Frame.covers_ofExcept deleted) fun _ => unsubscribes
      exact wp_of_resting rest ⟨progress, steady⟩

end Handlers

section Entity

variable {sha256 : Bytes → Bytes} {decoder : Decoder} {me : ℕ} {state : ClientState} {trace : ClientTrace}
  {progress : SubmitProgress} {client : PartialClient}

/-- An assertion is a call that fails when its condition does. -/
theorem wp_assert {V : Type} {asserted : Asserted} {condition : Bool} {message : String}
    {rest : Unit → ClientProgram V} {post : Post ClientState ClientAnswer Thrown V ClientTask}
    (monitored : (submissionContract sha256 decoder).monitor trace me (.called (.assert asserted condition) ()))
    (fails : condition = false →
      post (.error (.error message)) state ((me, .called (.assert asserted condition) ()) :: trace))
    (holds : condition = true → wp (submissionContract sha256 decoder) me (rest ()) post state
      ((me, .called (.assert asserted condition) ()) :: trace)) :
    wp (submissionContract sha256 decoder) me ((assert asserted condition message).bind rest) post state
      trace := by
  intro _ _
  refine ⟨monitored, ?_⟩
  cases condition with
  | false => exact fails rfl
  | true => exact holds rfl

/-- The session id stays the one that was drawn. -/
theorem SubmissionCore.stored_of_drawn {earlier : ClientTrace} (core : SubmissionCore state trace)
    (grows : earlier ⊆ trace) {sessionId : String} (drawn : sessionIds earlier = [sessionId]) :
    state.extraNonceAndSessionId = some sessionId := by
  have member : sessionId ∈ sessionIds earlier := by
    rw [drawn]
    exact List.mem_singleton.mpr rfl
  have later : sessionId ∈ sessionIds trace := List.filterMap_subset _ grows member
  rw [core.session] at later
  exact Option.mem_toList.mp later

/-- The first insertion touches the entity in a trace that has not touched it. -/
theorem SubmissionCore.insert (core : SubmissionCore state trace) (created : state.creatingEntity ≠ none)
    (clean : ∀ pair ∈ trace, ClientEvent.touchesEntity pair.2 = false) :
    SubmissionCore state ((me, .issued (.insertClient client)) :: trace) := by
  have newest : ∀ pair ∈ (me, Event.issued (ClientCall.insertClient client)) :: trace,
      ClientEvent.touchesEntity pair.2 = true → pair.1 = me := by
    intro pair member touches
    rcases List.mem_cons.mp member with rfl | older
    · rfl
    · rw [clean pair older] at touches
      cases touches
  have refused : ∀ thrown, state.creatingEntity = some (.settled (.error thrown)) →
      EntityFailed ((me, .issued (.insertClient client)) :: trace) :=
    fun thrown rejected => (core.refused thrown rejected).mono (List.subset_cons_self _ _)
  refine ⟨core.session, core.begun, fun uncreated => absurd uncreated created, ?_, ?_, ?_, core.settled,
    refused, core.named, ?_⟩
  · intro first firstMember second secondMember firstTouches secondTouches
    exact (newest first firstMember firstTouches).trans (newest second secondMember secondTouches).symm
  · rw [core.inserted]
    constructor
    · exact EntityInserted.mono (List.subset_cons_self _ _)
    · rintro ⟨other, client, member⟩
      rcases List.mem_cons.mp member with equal | older
      · cases equal
      · exact ⟨other, client, older⟩
  · rintro ⟨other, client, member⟩
    rcases List.mem_cons.mp member with equal | older
    · cases equal
    · have touches := clean _ older
      cases touches
  · intro configuration configured
    obtain ⟨other, fields, member⟩ := core.configured configuration configured
    exact ⟨other, fields, List.mem_cons_of_mem _ member⟩

/-- The state that the answer to the insertion leaves. -/
def entityAnswered (state : ClientState) : Except Thrown Unit → ClientState
  | .ok _ => { state with entity := true }
  | .error _ => state

/-- The only insertion is answered once. -/
theorem SubmissionCore.answer (core : SubmissionCore state trace)
    (issued : (me, .issued (.insertClient client)) ∈ trace)
    (mine : ∀ client result, (me, .answered (.insertClient client) result) ∉ trace)
    (stored : state.extraNonceAndSessionId.isSome) (result : Except Thrown Unit) :
    SubmissionCore (entityAnswered state result)
      ((me, .answered (.insertClient client) result) :: trace) := by
  have owner : ∀ pair ∈ trace, ClientEvent.touchesEntity pair.2 = true → pair.1 = me :=
    fun pair member touches => core.single pair member _ issued touches rfl
  have unanswered : ∀ index client result, (index, .answered (.insertClient client) result) ∉ trace := by
    intro index client result member
    obtain rfl : index = me := owner _ member rfl
    exact mine client result member
  have created : state.creatingEntity ≠ none := by
    intro uncreated
    have touches := (core.untouched uncreated).2 _ issued
    cases touches
  have single : ∀ first ∈ (me, Event.answered (ClientCall.insertClient client) result) :: trace,
      ∀ second ∈ (me, Event.answered (ClientCall.insertClient client) result) :: trace,
        ClientEvent.touchesEntity first.2 = true → ClientEvent.touchesEntity second.2 = true →
          first.1 = second.1 := by
    have newest : ∀ pair ∈ (me, Event.answered (ClientCall.insertClient client) result) :: trace,
        ClientEvent.touchesEntity pair.2 = true → pair.1 = me := by
      intro pair member touches
      rcases List.mem_cons.mp member with rfl | older
      · rfl
      · exact owner pair older touches
    intro first firstMember second secondMember firstTouches secondTouches
    exact (newest first firstMember firstTouches).trans (newest second secondMember secondTouches).symm
  have configured : ∀ configuration, state.clientConfiguration = some configuration → ∃ index fields,
      (index, .answered (.validateConfiguration fields) (.ok (.valid configuration))) ∈
        (me, Event.answered (ClientCall.insertClient client) result) :: trace := by
    intro configuration configured
    obtain ⟨other, fields, member⟩ := core.configured configuration configured
    exact ⟨other, fields, List.mem_cons_of_mem _ member⟩
  have refused : ∀ thrown, state.creatingEntity = some (.settled (.error thrown)) →
      EntityFailed ((me, .answered (.insertClient client) result) :: trace) :=
    fun thrown rejected => (core.refused thrown rejected).mono (List.subset_cons_self _ _)
  cases result with
  | ok done =>
      refine ⟨core.session, core.begun, fun uncreated => absurd uncreated created, single, ?_, ?_,
        fun _ => rfl, refused, fun _ => stored, configured⟩
      · exact iff_of_true rfl ⟨me, client, List.mem_cons_self⟩
      · rintro _ ⟨other, client, thrown, member⟩
        rcases List.mem_cons.mp member with equal | older
        · cases equal
        · exact unanswered _ _ _ older
  | error thrown =>
      have nothing : ¬ EntityInserted ((me, .answered (.insertClient client) (.error thrown)) :: trace) := by
        rintro ⟨other, client, member⟩
        rcases List.mem_cons.mp member with equal | older
        · cases equal
        · exact unanswered _ _ _ older
      refine ⟨core.session, core.begun, fun uncreated => absurd uncreated created, single, ?_,
        fun inserted => absurd inserted nothing, core.settled, refused, core.named, configured⟩
      apply iff_of_false _ nothing
      intro entity
      obtain ⟨other, client, member⟩ := core.inserted.mp entity
      exact unanswered _ _ _ member

/-- The result of the entity promise is explained by the trace. -/
def EntitySettles (result : Except Thrown Unit) (trace : ClientTrace) : Prop :=
  match result with
  | .ok _ => EntityInserted trace
  | .error _ => EntityFailed trace

/-- The executor inserts the entity once, for the session of the connection. -/
theorem wp_createEntity (running : Running me progress state trace)
    (created : state.creatingEntity ≠ none)
    (clean : ∀ pair ∈ trace, ClientEvent.touchesEntity pair.2 = false) :
    wp (submissionContract sha256 decoder) me createEntity (fun result after later =>
      Running me progress after later ∧ EntitySettles result later) state trace := by
  have fails : ∀ {later : ClientTrace} {asserted : Asserted} {condition : Bool} {thrown : Thrown},
      Running me progress state ((me, .called (.assert asserted condition) ()) :: later) →
      asserted ∈ connectionParts → condition = false →
        Running me progress state ((me, .called (.assert asserted condition) ()) :: later) ∧
          EntitySettles (.error thrown) ((me, .called (.assert asserted condition) ()) :: later) := by
    rintro later asserted condition thrown running part rfl
    exact ⟨running, .inr ⟨me, asserted, part, List.mem_cons_self⟩⟩
  unfold createEntity
  simp only [Program.bind_eq, Program.load, Program.bind]
  change wp _ me (Program.bind (assert _ _ _) _) _ state trace
  have first := running.called (.assert .extraNonceAndSessionId state.extraNonceAndSessionId.isSome) () trivial
  apply wp_assert (running.monitor_called (.assert .extraNonceAndSessionId _) () trivial)
  · exact fails first (by decide)
  intro stored
  have second := first.called (.assert .clientAuthorization state.clientAuthorization.isSome) () trivial
  apply wp_assert (first.monitor_called (.assert .clientAuthorization _) () trivial)
  · exact fails second (by decide)
  intro _
  have third := second.called (.assert .clientSubscription state.clientSubscription.isSome) () trivial
  apply wp_assert (second.monitor_called (.assert .clientSubscription _) () trivial)
  · exact fails third (by decide)
  intro _ startTime _
  have timed := third.called .now startTime trivial
  refine ⟨third.monitor_called .now startTime trivial, ?_⟩
  -- The insertion is the first event that touches the entity.
  obtain ⟨sessionId, named⟩ := Option.isSome_iff_exists.mp stored
  have untouched : ∀ pair ∈ (me, Event.called ClientCall.now startTime) ::
      (me, .called (.assert .clientSubscription state.clientSubscription.isSome) ()) ::
      (me, .called (.assert .clientAuthorization state.clientAuthorization.isSome) ()) ::
      (me, .called (.assert .extraNonceAndSessionId state.extraNonceAndSessionId.isSome) ()) :: trace,
      ClientEvent.touchesEntity pair.2 = false := by
    simp only [List.forall_mem_cons]
    exact ⟨rfl, rfl, rfl, rfl, clean⟩
  have drawn := timed.core.session
  rw [named] at drawn
  refine ⟨⟨continuesLookup_of_found timed.found trivial, untouched, sessionId, drawn, named⟩, ?_, ?_⟩
  · refine ⟨timed.core.insert created untouched, ?_, trivial⟩
    intro pair newest
    obtain rfl := Option.some.inj newest
    rfl
  · intro state' trace' _ extension kept inserted _
    have mine : ∀ client result, (me, .answered (.insertClient client) result) ∉ trace' := by
      intro client result member
      rcases List.mem_cons.mp (extension.mem_of_mine member) with equal | older
      · cases equal
      · have touches := untouched _ older
        cases touches
    have same : submitProgress me trace' = progress := by
      rw [Extends.submitProgress_eq extension, submitProgress_cons, timed.progressed]
      rfl
    have grows : _ ⊆ trace' := fun pair member => extension.mem (List.mem_cons_of_mem _ member)
    have kept' := kept.core.stored_of_drawn grows drawn
    have core := kept.core.answer (extension.mem List.mem_cons_self) mine (by rw [kept']; rfl) inserted
    refine ⟨⟨continuesLookup_of_found kept.found trivial, trivial⟩, ?_⟩
    have answered : Running me progress (entityAnswered state' inserted) ((me, .answered _ inserted) :: trace') := by
      refine ⟨core, ?_, ?_, ?_⟩
      · intro pair newest
        obtain rfl := Option.some.inj newest
        rfl
      · intro pair newest
        obtain rfl := Option.some.inj newest
        rfl
      · rw [submitProgress_cons, same]
        rfl
    cases inserted with
    | error thrown => exact ⟨answered, .inl ⟨me, _, thrown, List.mem_cons_self⟩⟩
    | ok done => exact ⟨trivial, answered, me, _, List.mem_cons_self⟩

/-- The creator settles the promise and goes on in a later step. -/
theorem wp_settleEntity (running : Running me progress state trace) (result : Except Thrown Unit)
    (settles : EntitySettles result trace) :
    wp (submissionContract sha256 decoder) me
      (.store { state with creatingEntity := some (.settled result) }
        (.await .turn fun _ => Program.ofExcept result))
      (fun result after later => Steady me progress after later ∧ (result = .ok () → after.entity = true))
      state trace := by
  have core := running.core
  have settled : Running me progress { state with creatingEntity := some (.settled result) } trace := by
    refine ⟨⟨core.session, core.begun, ?_, core.single, core.inserted, core.exclusive, ?_, ?_, core.named,
      core.configured⟩, running.found, running.awake, running.progressed⟩
    · intro uncreated
      cases uncreated
    · intro same
      cases same
      exact core.inserted.mpr settles
    · intro thrown same
      cases same
      exact settles
  refine ⟨trivial, ?_⟩
  refine wp_await (running.monitor_issued .turn trivial) (settled.neutral ⟨rfl, rfl, rfl, rfl⟩).invariant
    running.progressed (fun _ => ⟨rfl, rfl, rfl, rfl⟩) ?_
  intro state' trace' _ kept _ grows steady
  rw [wp_ofExcept]
  refine ⟨steady, ?_⟩
  rintro rfl
  exact kept.core.inserted.mpr (EntityInserted.mono grows settles)

/-- Every submission waits for the one insertion and goes on only after its success. -/
theorem wp_enterEntity (steady : Steady me progress state trace) :
    wp (submissionContract sha256 decoder) me awaitEntity (fun result after later =>
      Steady me progress after later ∧ (result = .ok () → after.entity = true)) state trace := by
  unfold awaitEntity
  simp only [Program.bind_eq, Program.load, Program.bind]
  show wp _ me (if state.entity then _ else _) _ state trace
  split
  · rename_i entity
    exact ⟨steady, fun _ => entity⟩
  · cases creating : state.creatingEntity with
    | none =>
        -- This thread creates the entity, so nobody has touched it yet.
        have clean := (steady.core.untouched creating).2
        have pending : SubmissionCore { state with creatingEntity := some .pending } trace := by
          have core := steady.core
          refine ⟨core.session, core.begun, ?_, core.single, core.inserted, core.exclusive, ?_, ?_, core.named,
            core.configured⟩
          · intro uncreated
            cases uncreated
          · intro settled
            cases settled
          · intro thrown settled
            cases settled
        have running : Running me progress { state with creatingEntity := some .pending } trace :=
          ⟨pending, steady.found, steady.awake, steady.progressed⟩
        refine ⟨trivial, ?_⟩
        change wp _ me (Program.bind (Program.attempt (createEntity.bind _) _) _) _ _ trace
        rw [wp_bind, wp_attempt, wp_bind]
        have created : ({ state with creatingEntity := some .pending } : ClientState).creatingEntity ≠ none := by
          intro uncreated
          cases uncreated
        apply wp_mono _ (wp_createEntity running created clean)
        rintro result after later ⟨running, settles⟩
        cases result with
        | error thrown => exact wp_settleEntity running (.error thrown) settles
        | ok done => exact wp_settleEntity running (.ok done) settles
    | some promise =>
        refine wp_await (steady.monitor_issued .creatingEntity trivial) (steady.issued ⟨rfl, rfl, rfl, rfl⟩)
          steady.progressed (fun _ => ⟨rfl, rfl, rfl, rfl⟩) ?_
        intro state' trace' result kept admitted _ steady
        change wp _ me (Program.ofExcept result) _ state' _
        rw [wp_ofExcept]
        refine ⟨steady, ?_⟩
        rintro rfl
        exact kept.core.settled admitted

end Entity

section Submissions

variable {sha256 : Bytes → Bytes} {decoder : Decoder} {me : ℕ} {state : ClientState} {trace : ClientTrace}
  {progress : SubmitProgress}

/-- The version of a submission is rolled under the configuration that the connection holds. -/
theorem wp_rollsVersion (sources : ProofSources) (steady : Steady me progress state trace) :
    wp (submissionContract sha256 decoder) me (rollVersion sources.message sources.template.block.version)
      (fun result after later => Steady me progress after later ∧ ∀ version, result = .ok (.ok version) →
        after = state ∧ sources.Versions state.clientConfiguration version) state trace := by
  unfold rollVersion
  simp only [Program.bind_eq, Program.load, Program.bind]
  rw [wp]
  unfold ProofSources.Versions
  cases state.clientConfiguration with
  | none =>
      refine ⟨steady, ?_⟩
      intro version same
      cases same
      exact ⟨rfl, rfl⟩
  | some configuration =>
      cases rolling : configuration.versionRolling with
      | false =>
          simp only [rolling]
          refine ⟨steady, ?_⟩
          intro version same
          cases same
          exact ⟨rfl, rfl⟩
      | true =>
          simp only [rolling, if_true]
          have masked := steady.called (.assert .versionMask (hasValue sources.message.versionMask)) () trivial
          apply wp_assert (steady.monitor_called (.assert .versionMask _) () trivial)
          · intro _
            refine ⟨masked, ?_⟩
            intro version impossible
            cases impossible
          intro _
          split
          · rw [wp_bind]
            have answers : OrdinaryProgram ((write (.error sources.message.id .otherUnknown
                "Invalid version mask" [])).joined ClientCall.turn) := ordinary_answer trivial
            apply wp_mono _ (wp_of_ordinary answers masked)
            intro result after later steady
            cases result with
            | error thrown =>
                refine ⟨steady, ?_⟩
                intro version impossible
                cases impossible
            | ok written =>
                refine ⟨steady, ?_⟩
                intro version impossible
                cases impossible
          · rename_i contained
            refine ⟨masked, ?_⟩
            intro version same
            cases same
            exact ⟨rfl, contained, rfl⟩

/-- The payment passes on the proof of its sources. -/
theorem wp_paysMiner (sources : ProofSources) {sessionId : String} {extraData : Bytes} {version : Number}
    (steady : Steady me sources.progress state trace)
    (stored : state.extraNonceAndSessionId = some sessionId)
    (hashed : extraData = doubleSHA256 sha256 (Bytes.ofHex (extraDataText sources.template.block
      (some sessionId) sources.message.extraNonce2)))
    (versions : sources.Versions state.clientConfiguration version) :
    wp (submissionContract sha256 decoder) me (payMiner sources.message extraData version)
      (fun _ => Resting me) state trace := by
  unfold payMiner
  simp only [Program.bind_eq, Program.load, Program.bind]
  intro fee _
  have charged := steady.called (.configNumber "FEE" 100) fee trivial
  refine ⟨steady.monitor_called (.configNumber "FEE" 100) fee trivial, ?_⟩
  have asserted := charged.called (.assert .fee (validFee fee)) () trivial
  apply wp_assert (charged.monitor_called (.assert .fee _) () trivial)
  · exact fun _ => ⟨_, asserted⟩
  intro _
  rw [wp]
  cases state.clientAuthorization with
  | none => exact ⟨_, asserted⟩
  | some clientAuthorization =>
      have drawn := asserted.core.session
      rw [stored] at drawn
      refine wp_await ⟨continuesLookup_of_found asserted.found trivial, sources, sessionId,
        asserted.progressed, drawn, hashed⟩ ⟨asserted.core.cons rfl rfl, ?_, ?_⟩ asserted.progressed
        (fun _ => ⟨rfl, rfl, rfl, rfl⟩) ?_
      · intro pair newest
        obtain rfl := Option.some.inj newest
        rfl
      · refine ⟨sources, ?_, versions⟩
        rw [submitProgress_cons, asserted.progressed]
        rfl
      · intro state' trace' answer _ _ _ paid
        refine wp_of_resting ?_ ⟨_, paid⟩
        apply covers_bind (Frame.covers_ofExcept answer)
        intro mintComptokensResult
        split
        · split
          · exact covers_bind (ordinary_answer trivial) fun _ => Frame.covers_done _
          · exact covers_bind (ordinary_answer trivial) fun _ => Frame.covers_done _
        · exact Frame.covers_done _

/-- The share of a found job is hashed under the session id. -/
theorem wp_sharesWork (sources : ProofSources) (steady : Steady me sources.progress state trace)
    (entity : state.entity = true) :
    wp (submissionContract sha256 decoder) me (submitShare sha256 sources.message sources.template)
      (fun _ => Resting me) state trace := by
  obtain ⟨sessionId, stored⟩ := Option.isSome_iff_exists.mp (steady.core.named entity)
  unfold submitShare
  simp only [Program.bind_eq, Program.load, Program.bind]
  change wp _ me (Program.bind (rollVersion _ _) _) _ state trace
  rw [wp_bind]
  apply wp_mono _ (wp_rollsVersion sources steady)
  rintro result after later ⟨rolled, versions⟩
  cases result with
  | error thrown => exact ⟨_, rolled⟩
  | ok outcome =>
      cases outcome with
      | error written => exact ⟨_, rolled⟩
      | ok version =>
          obtain ⟨rfl, versions⟩ := versions version rfl
          exact wp_paysMiner sources rolled stored (by rw [stored]) versions

/-- A submission looks up its job only after the entity is there, and it goes on only with a template. -/
theorem wp_submits (message : MiningSubmitMessage) (steady : Steady me ⟨[message], [], []⟩ state trace) :
    wp (submissionContract sha256 decoder) me (handleMiningSubmission sha256 message)
      (fun _ => Resting me) state trace := by
  unfold handleMiningSubmission
  simp only [Program.bind_eq, Program.load, Program.bind]
  change wp _ me (Program.bind (assert _ _ _) _) _ state trace
  have authorized := steady.called (.assert .clientAuthorization state.clientAuthorization.isSome) () trivial
  apply wp_assert (steady.monitor_called (.assert .clientAuthorization _) () trivial)
  · exact fun _ => ⟨_, authorized⟩
  intro _
  rw [wp_bind]
  apply wp_mono _ (wp_enterEntity authorized)
  rintro result state trace ⟨steady, entered⟩
  cases result with
  | error thrown => exact ⟨_, steady⟩
  | ok done =>
      have entity := entered rfl
      intro job _
      refine ⟨⟨continuesLookup_of_found steady.found trivial, steady.resumed entity, message,
        steady.progressed, rfl⟩, ?_⟩
      have core := @SubmissionCore.cons me (.called (.getJobById message.jobId) job) _ _ steady.core rfl rfl
      have progressed : submitProgress me ((me, .called (.getJobById message.jobId) job) :: trace) =
          ⟨[message], [job], []⟩ := by
        rw [submitProgress_cons, steady.progressed]
        rfl
      have looked : state.entity = true → EntityInserted
          (beforeStep ((me, .called (.getJobById message.jobId) job) :: trace)) := by
        rw [beforeStep_cons_of_not_resumes rfl]
        exact steady.resumed
      cases job with
      | none =>
          have messages : (submitProgress me ((me, .called (.getJobById message.jobId) none) :: trace)).messages =
              [message] := by rw [progressed]
          have opened : (submissionContract sha256 decoder).monitor
              ((me, .called (.getJobById message.jobId) none) :: trace) me
              (.issued (.writeSocket (.error message.id .jobNotFound "Job not found" []))) :=
            ⟨⟨rfl, message, messages, rfl⟩, trivial⟩
          have closed : (submissionContract sha256 decoder).monitor
              ((me, .called (.getJobById message.jobId) none) :: trace) me (.called .startDestroy ()) :=
            ⟨⟨rfl, message, messages, trivial⟩, trivial⟩
          have destroying : Steady me ⟨[message], [none], []⟩ state
              ((me, .called .startDestroy ()) :: (me, .called (.getJobById message.jobId) none) :: trace) := by
            apply Steady.of_called (core.cons rfl rfl) rfl _ looked
            rw [submitProgress_cons, progressed]
            rfl
          change wp _ me (Program.bind ((write _).joined .turn) fun _ => .done false) _ state _
          rw [wp_bind]
          apply wp_mono _ (wp_reply_first ⟨opened, core.cons rfl rfl, ?_, trivial⟩ ⟨closed, destroying⟩
            progressed)
          · intro result state trace steady
            cases result with
            | ok written => exact ⟨_, steady⟩
            | error thrown => exact ⟨_, steady⟩
          · intro pair newest
            obtain rfl := Option.some.inj newest
            rfl
      | some job =>
          intro jobTemplate _
          refine ⟨⟨⟨rfl, jobTemplate, rfl⟩, trivial⟩, ?_⟩
          have asserted : Steady me ⟨[message], [some job], [jobTemplate]⟩ state
              ((me, .called (.assert .jobTemplate jobTemplate.isSome) ()) ::
                (me, .called (.getJobTemplateById (jobTemplateIdOf job)) jobTemplate) ::
                (me, .called (.getJobById message.jobId) (some job)) :: trace) := by
            apply Steady.of_called ((core.cons rfl rfl).cons rfl rfl) rfl
            · rw [submitProgress_cons, submitProgress_cons, progressed]
              rfl
            · rw [beforeStep_cons_of_not_resumes rfl]
              exact looked
          change wp _ me (Program.bind (assert _ _ _) _) _ state _
          have asserts : (submissionContract sha256 decoder).monitor
              ((me, .called (.getJobTemplateById (jobTemplateIdOf job)) jobTemplate) ::
                (me, .called (.getJobById message.jobId) (some job)) :: trace) me
              (.called (.assert .jobTemplate jobTemplate.isSome) ()) := ⟨⟨rfl, rfl⟩, trivial⟩
          apply wp_assert asserts
          · exact fun _ => ⟨_, asserted⟩
          intro found
          cases jobTemplate with
          | none => cases found
          | some entry =>
              cases entry with
              | inherited => exact ⟨_, asserted⟩
              | own jobTemplate => exact wp_sharesWork ⟨message, job, jobTemplate⟩ asserted entity

/-- A submission is validated by its own thread, and then it passes the gate or is refused. -/
theorem wp_handleSubmit (fields : Fields) (steady : Steady me {} state trace) :
    wp (submissionContract sha256 decoder) me (handleSubmitMessage sha256 fields)
      (fun _ => Resting me) state trace := by
  unfold handleSubmitMessage
  rw [Program.bind_eq, wp_bind]
  have monitored : (submissionContract sha256 decoder).monitor trace me (.issued (.validateSubmit fields)) :=
    ⟨continuesLookup_of_found steady.found trivial, steady.progressed⟩
  apply wp_mono _ (wp_validated (.validateSubmit fields) (fun answer => answer) steady monitored
    ⟨rfl, rfl, rfl, rfl⟩ fun _ => ⟨rfl, rfl, rfl, rfl⟩)
  rintro outcome state trace ⟨answer, steady, validated, _⟩
  cases outcome with
  | error thrown => exact ⟨_, steady⟩
  | ok outcome =>
      cases outcome with
      | error written => exact ⟨_, steady⟩
      | ok message =>
          obtain rfl := validated message rfl
          have started : Steady me ⟨[message], [], []⟩ state trace := steady
          have answers : ∀ line : Line, (ClientCall.writeSocket line).Ordinary →
              OrdinaryProgram ((write line).joined ClientCall.turn) := fun _ plain => ordinary_answer plain
          change wp _ me (if _ then _ else _) _ state trace
          split
          · refine wp_of_resting ?_ ⟨_, started⟩
            exact covers_bind (answers (.error _ _ _ _) trivial) fun _ => Frame.covers_done false
          · rw [Program.bind_eq, wp_bind]
            apply wp_mono _ (wp_joined_of_resting (wp_submits message started))
            intro result state trace resting
            cases result with
            | error thrown => exact resting
            | ok success =>
                cases success with
                | false => exact resting
                | true => exact wp_of_resting (answers message.response trivial) resting

end Submissions

section Tasks

variable {sha256 : Bytes → Bytes} {decoder : Decoder} {me : ℕ} {state : ClientState} {trace : ClientTrace}

theorem wp_dispatches (method : Option RequestMethod) (fields : Fields) (steady : Steady me {} state trace) :
    wp (submissionContract sha256 decoder) me (dispatch sha256 method fields)
      (fun _ => Resting me) state trace := by
  cases method with
  | none => exact ⟨_, steady⟩
  | some method =>
      cases method with
      | subscribe => exact wp_joined_of_resting (wp_subscribe fields steady)
      | configure => exact wp_joined_of_resting (wp_configure fields steady)
      | authorize =>
          have authorizes : OrdinaryProgram (handleAuthorizationMessage fields) :=
            covers_handleAuthorizationMessage sameSubmission_of_store ordinaryCall fields
          exact wp_joined_of_resting (wp_of_resting authorizes ⟨_, steady⟩)
      | suggestDifficulty => exact ⟨_, steady⟩
      | submit =>
          show wp _ me (if !state.stratumInitialized then _ else _) _ state trace
          split
          · have ends : OrdinaryProgram (endSocket.bind fun _ => Program.done false) :=
              covers_bind (covers_ended sameSubmission_of_store ordinaryCall) fun _ => Frame.covers_done false
            exact wp_of_resting ends ⟨_, steady⟩
          · exact wp_joined_of_resting (wp_handleSubmit fields steady)

theorem ordinary_endSocket : OrdinaryProgram endSocket := covers_ended sameSubmission_of_store ordinaryCall

theorem wp_handlesMessage (line : Option Json) (steady : Steady me {} state trace) :
    wp (submissionContract sha256 decoder) me (handleMessage sha256 line) (fun _ => Resting me) state
      trace := by
  cases line with
  | none => exact wp_of_resting ordinary_endSocket ⟨_, steady⟩
  | some parsedMessage =>
      change wp _ me ((Program.ofExcept (Value.field (some parsedMessage) "method")).bind _) _ state trace
      rw [wp_bind, wp_ofExcept]
      cases Value.field (some parsedMessage) "method" with
      | error thrown => exact ⟨_, steady⟩
      | ok method =>
          show wp _ me ((dispatch sha256 (RequestMethod.ofValue method) (requestFields parsedMessage)).bind _) _
            state trace
          rw [wp_bind]
          apply wp_mono _ (wp_dispatches (RequestMethod.ofValue method) (requestFields parsedMessage) steady)
          intro success state trace resting
          cases success with
          | error thrown => exact resting
          | ok success =>
              have continues : OrdinaryProgram (if !success then pure () else startWhenReady) :=
                covers_continue sameSubmission_of_store ordinaryCall success
              exact wp_of_resting continues resting

/-- An error of a callback ends the socket and leaves its thread at rest. -/
theorem wp_guards {program : ClientProgram Unit}
    (holds : wp (submissionContract sha256 decoder) me program (fun _ => Resting me) state trace) :
    wp (submissionContract sha256 decoder) me (guarded program) (fun _ => Resting me) state trace := by
  unfold guarded
  rw [wp_attempt]
  apply wp_mono _ (wp_joined_of_resting holds)
  intro result state trace resting
  cases result with
  | ok done => exact resting
  | error thrown => exact wp_of_resting ordinary_endSocket resting

theorem wp_runsTask (task : ClientTask) (steady : Steady me {} state trace) :
    wp (submissionContract sha256 decoder) me (task.program sha256) (fun _ => Resting me) state trace := by
  cases task with
  | line message => exact wp_guards (wp_handlesMessage message steady)
  | newMiningJob template =>
      have sends : OrdinaryProgram (sendNewMiningJob template) :=
        covers_sendNewMiningJob sameSubmission_of_store ordinaryCall template
      exact wp_guards (wp_of_resting sends ⟨_, steady⟩)
  | destroy => exact wp_destroy steady

end Tasks

theorem submissionInvariant_initial : SubmissionInvariant {} [] := by
  refine ⟨⟨rfl, rfl, ?_, ?_, ?_, ?_, ?_, ?_, ?_, ?_⟩, ?_, trivial⟩
  · exact fun _ => ⟨rfl, by simp⟩
  · simp
  · simp [EntityInserted]
  · simp [EntityInserted]
  · intro impossible
    cases impossible
  · intro thrown impossible
    cases impossible
  · intro impossible
    cases impossible
  · intro configuration impossible
    cases impossible
  · simp

/-- The contract of the submissions holds in every interleaving of a connection. -/
theorem submissionContract_proved (sha256 : Bytes → Bytes) (decoder : Decoder) :
    (submissionContract sha256 decoder).Proved (clientSemantics sha256 decoder) {} where
  sameAnswers := rfl
  relyRefl _ := trivial
  relyTrans _ _ _ _ _ := trivial
  initially := submissionInvariant_initial
  starts state trace me task kept _ fresh := by
    have nothing : submitProgress me trace = {} := by
      have owned : own me trace = [] := by
        apply List.eq_nil_iff_forall_not_mem.mpr
        intro event member
        exact fresh event (mem_own.mp member)
      rw [submitProgress, owned]
      rfl
    have event : ClientEvent.Ordinary (.started task) := trivial
    have steady : Steady me {} state ((me, .started task) :: trace) := kept.steady event.neutral rfl nothing
    have monitored : submissionMonitor sha256 trace me (.started task) := monitor_of_ordinary kept.found event
    refine ⟨monitored, ?_⟩
    apply wp_mono _ (wp_runsTask task steady)
    rintro result state trace ⟨progress, steady⟩
    exact steady.invariant
  disturbed state state' trace kept disturbed := by
    obtain ⟨destroyed, writableEnded, rfl⟩ := disturbed
    exact ⟨trivial, kept.core.same ⟨rfl, rfl, rfl, rfl, rfl⟩, kept.found, kept.rolled⟩

end ComptoMiningPool
