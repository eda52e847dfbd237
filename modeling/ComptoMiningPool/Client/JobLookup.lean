import ComptoMiningPool.Async.Obligations
import ComptoMiningPool.Client.Startup
import ComptoMiningPool.Client.SubmissionRun
import ComptoMiningPool.Pool.Freshness

/-
This file follows a submission that names an unknown job from the version gate to its answer.
-/

namespace ComptoMiningPool

open JavaScript Async

/-- The thread of a validated submission has just gone past the version gate. -/
def gatedMessage : ClientHistory → Option MiningSubmitMessage
  | .called (.assert .clientAuthorization true) () :: .answered .turn () :: .issued .turn ::
      .answered (.validateSubmit _) (.ok (.valid message)) :: .issued (.validateSubmit _) :: _ => some message
  | _ => none

/-- The thread looks a job up, or its entity has failed. -/
def settlesLookup : ClientEvent → Prop
  | .called (.getJobById _) _ => True
  | .called (.assert asserted false) _ => asserted ∈ connectionParts
  | .answered (.insertClient _) (.error _) => True
  | .answered .creatingEntity (.error _) => True
  | _ => False

/-- Past the version gate a thread owes its lookup or the failure of its entity. -/
abbrev ObligesLookup {V : Type} (program : ClientProgram V) (past : ClientHistory) : Prop :=
  Obliges (fun past => (gatedMessage past).isSome) settlesLookup program past

/-- The call asserts no authorization. -/
def ClientCall.Ungated : ClientCall → Prop
  | .assert .clientAuthorization _ => False
  | _ => True

abbrev UngatedProgram {V : Type} (program : ClientProgram V) : Prop := Makes ClientCall.Ungated program

section Ungated

theorem UngatedProgram.obliges {V : Type} {program : ClientProgram V} (ungated : UngatedProgram program)
    (past : ClientHistory) : ObligesLookup program past := by
  apply obliges_of_makes ungated
  intro request answer past allowed gated
  cases request with
  | assert asserted holds =>
      cases asserted with
      | clientAuthorization => exact allowed
      | _ => cases gated
  | _ => cases gated

theorem ungated_endSocket : UngatedProgram endSocket :=
  ⟨trivial, fun _ _ => ⟨trivial, fun _ => trivial⟩⟩

theorem ungated_destroySocket : UngatedProgram destroySocket := ⟨trivial, fun _ _ => trivial⟩

theorem ungated_writeToClosed : UngatedProgram writeToClosed := by
  refine ⟨trivial, ?_⟩
  intro _
  apply makes_load
  intro state
  split
  · exact ungated_destroySocket.bind fun _ => trivial
  · trivial

theorem ungated_writeFailed : UngatedProgram writeFailed := by
  refine ⟨trivial, ?_⟩
  intro _
  apply makes_load
  intro state
  split
  · exact ungated_endSocket.bind fun _ => trivial
  · split
    · exact ungated_destroySocket.bind fun _ => trivial
    · trivial

theorem ungated_write (line : Line) : UngatedProgram (write line) := by
  apply Makes.attempt _ fun _ => ungated_writeFailed
  apply makes_load
  intro state
  split
  · exact ⟨trivial, fun answer => (makes_ofExcept answer).bind fun _ => trivial⟩
  · exact ungated_writeToClosed

theorem ungated_answer (line : Line) : UngatedProgram ((write line).joined ClientCall.turn) :=
  (ungated_write line).joined trivial

theorem ungated_validateMessage {M : Type} {validate : ClientProgram (Validated M)}
    (ungated : UngatedProgram validate) : UngatedProgram ((validateMessage validate).joined ClientCall.turn) := by
  apply Makes.joined _ trivial
  apply ungated.bind
  intro validated
  cases validated with
  | invalid id errors => exact (ungated_answer _).bind fun _ => trivial
  | valid message => trivial

theorem ungated_handleSubscriptionMessage (fields : Fields) :
    UngatedProgram (handleSubscriptionMessage fields) := by
  have validates : UngatedProgram (validateSubscription fields) := ⟨trivial, makes_ofExcept⟩
  apply (ungated_validateMessage validates).bind
  intro validated
  cases validated with
  | error written => trivial
  | ok subscriptionMessage =>
      have starts : UngatedProgram startSession := by
        intro state
        show UngatedProgram (if state.sessionStart.isNone then _ else _)
        split
        · exact ⟨trivial, fun _ _ => ⟨trivial, fun _ _ => trivial⟩⟩
        · trivial
      exact starts.bind fun _ _ state => ungated_answer _

theorem ungated_handleConfigureMessage (fields : Fields) : UngatedProgram (handleConfigureMessage fields) := by
  have validates : UngatedProgram (validateConfiguration fields) := ⟨trivial, makes_ofExcept⟩
  apply (ungated_validateMessage validates).bind
  intro validated
  cases validated with
  | error written => trivial
  | ok configurationMessage => exact fun _ => ungated_answer _

theorem ungated_handleAuthorizationMessage (fields : Fields) :
    UngatedProgram (handleAuthorizationMessage fields) := by
  have validates : UngatedProgram (validateAuthorization fields) := ⟨trivial, makes_ofExcept⟩
  apply (ungated_validateMessage validates).bind
  intro validated
  cases validated with
  | error written => trivial
  | ok authorizationMessage => exact fun _ => ⟨trivial, fun _ => ungated_answer _⟩

theorem ungated_sendNewMiningJob (template : JobTemplate) : UngatedProgram (sendNewMiningJob template) := by
  refine ⟨trivial, ?_⟩
  intro job
  exact (makes_ofExcept (MiningJob.response job template)).bind fun line =>
    (ungated_answer line).bind fun _ => trivial

theorem ungated_destroy : UngatedProgram destroy := by
  have unsubscribes : UngatedProgram (Program.load.bind fun state =>
      if state.stratumSubscription then Program.perform ClientCall.unsubscribe else .done ()) := by
    apply makes_load
    intro state
    split
    · exact ⟨trivial, fun _ => trivial⟩
    · trivial
  apply makes_load
  intro state
  cases state.extraNonceAndSessionId with
  | none => exact unsubscribes
  | some sessionId =>
      exact ⟨trivial, fun deleted => (makes_ofExcept deleted).bind fun _ => unsubscribes⟩

/-- An assertion about another value is ungated. -/
theorem ungated_assert_bind {V : Type} {asserted : Asserted} {condition : Bool} {message : String}
    {rest : Unit → ClientProgram V} (other : asserted ≠ .clientAuthorization)
    (ungated : UngatedProgram (rest ())) : UngatedProgram ((assert asserted condition message).bind rest) := by
  have plain : (ClientCall.assert asserted condition).Ungated := by
    cases asserted with
    | clientAuthorization => exact other rfl
    | _ => trivial
  refine ⟨plain, ?_⟩
  intro _
  cases condition with
  | false => trivial
  | true => exact ungated

theorem ungated_rollVersion (submission : MiningSubmitMessage) (version : ℕ) :
    UngatedProgram (rollVersion submission version) := by
  apply makes_load
  intro state
  split
  · trivial
  · split
    · apply ungated_assert_bind (by decide)
      show UngatedProgram (if _ then _ else _)
      split
      · exact (ungated_answer _).bind fun _ => trivial
      · trivial
    · trivial

theorem ungated_payMiner (submission : MiningSubmitMessage) (extraData : Bytes) (version : Number) :
    UngatedProgram (payMiner submission extraData version) := by
  refine ⟨trivial, ?_⟩
  intro fee
  apply ungated_assert_bind (by decide)
  apply makes_load
  intro state
  split
  · trivial
  · refine ⟨trivial, ?_⟩
    intro answer
    apply (makes_ofExcept answer).bind
    intro result
    show UngatedProgram (if _ then _ else _)
    split
    · split
      · exact (ungated_answer _).bind fun _ => trivial
      · exact (ungated_answer _).bind fun _ => trivial
    · trivial

theorem ungated_submitShare (sha256 : Bytes → Bytes) (submission : MiningSubmitMessage)
    (template : JobTemplate) : UngatedProgram (submitShare sha256 submission template) := by
  apply makes_load
  intro state
  apply (ungated_rollVersion submission template.block.version).bind
  intro rolled
  cases rolled with
  | error written => trivial
  | ok version => exact ungated_payMiner _ _ _

end Ungated

section Obligations

variable {sha256 : Bytes → Bytes} {past : ClientHistory}

/-- A missing part of the entity settles the lookup. -/
theorem owes_assert_bind {V : Type} {excused : Except Thrown V → Prop} {asserted : Asserted}
    {condition : Bool} {message : String} {rest : Unit → ClientProgram V}
    (part : asserted ∈ connectionParts) (owes : Owes settlesLookup excused (rest ())) :
    Owes settlesLookup excused ((assert asserted condition message).bind rest) := by
  intro _
  cases condition with
  | false => exact .inl part
  | true => exact .inr owes

theorem owes_createEntity : Owes settlesLookup (fun result => result = .ok ()) createEntity := by
  intro state
  apply owes_assert_bind (by decide)
  apply owes_assert_bind (by decide)
  apply owes_assert_bind (by decide)
  intro startTime
  refine .inr ?_
  intro inserted
  cases inserted with
  | error thrown => exact .inl trivial
  | ok done => exact .inr fun _ => rfl

/-- A thread goes on without its entity only after the entity has failed. -/
theorem owes_awaitEntity : Owes settlesLookup (fun result => result = .ok ()) awaitEntity := by
  intro state
  show Owes _ _ (if state.entity then _ else _)
  split
  · rfl
  · cases state.creatingEntity with
    | some promise =>
        intro result
        cases result with
        | error thrown => exact .inl trivial
        | ok done => exact .inr rfl
    | none =>
        have inserts : Owes settlesLookup (fun result => result = .ok (.ok ()))
            (createEntity.bind fun _ => .done (.ok () : Except Thrown Unit)) := by
          apply owes_createEntity.bind
          · exact fun _ _ => rfl
          · intro thrown impossible
            cases impossible
        intro _
        change Owes _ _ (Program.bind (Program.attempt (createEntity.bind _) _) _)
        have settles : Owes settlesLookup (fun result => result = .ok (.ok ()))
            (Program.attempt (createEntity.bind fun _ => .done (.ok () : Except Thrown Unit)) fun thrown =>
              .done (.error thrown)) := by
          apply inserts.attempt
          · exact fun _ same => same
          · intro thrown impossible
            cases impossible
        apply settles.bind
        · intro result same
          cases same
          exact fun _ _ => .inr rfl
        · intro thrown impossible
          cases impossible

theorem obliges_assert_bind {V : Type} {asserted : Asserted} {condition : Bool} {message : String}
    {rest : Unit → ClientProgram V}
    (quiet : gatedMessage (.called (.assert asserted condition) () :: past) = none)
    (obliges : ObligesLookup (rest ()) (.called (.assert asserted condition) () :: past)) :
    ObligesLookup ((assert asserted condition message).bind rest) past := by
  intro _
  constructor
  · intro gated
    rw [quiet] at gated
    cases gated
  · cases condition with
    | false => trivial
    | true => exact obliges

/-- The executor asserts the authorization in the middle of its step. -/
theorem obliges_createEntity (past : ClientHistory) : ObligesLookup createEntity past := by
  intro state
  apply obliges_assert_bind rfl
  apply obliges_assert_bind
  · cases state.clientAuthorization.isSome <;> rfl
  apply UngatedProgram.obliges
  apply ungated_assert_bind (by decide)
  exact ⟨trivial, fun startTime => ⟨trivial, fun inserted => (makes_ofExcept inserted).bind fun _ _ => trivial⟩⟩

theorem obliges_awaitEntity (past : ClientHistory) : ObligesLookup awaitEntity past := by
  intro state
  show ObligesLookup (if state.entity then _ else _) past
  split
  · trivial
  · cases state.creatingEntity with
    | some promise =>
        have awaits : UngatedProgram ((Program.awaiting .creatingEntity).bind Program.ofExcept) :=
          ⟨trivial, makes_ofExcept⟩
        exact awaits.obliges past
    | none =>
        have creates : ∀ past, ObligesLookup
            (Program.attempt (createEntity.bind fun _ => .done (.ok () : Except Thrown Unit)) fun thrown =>
              .done (.error thrown)) past := by
          intro past
          apply Obliges.attempt
          · exact (obliges_createEntity past).bind fun _ _ => trivial
          · exact fun _ _ => trivial
        intro _
        change ObligesLookup (Program.bind (Program.attempt (createEntity.bind _) _) _) past
        apply (creates past).bind
        intro result past _ answer
        exact UngatedProgram.obliges (makes_ofExcept result) _

/-- A submission asserts its authorization, waits for its entity, and looks its job up. -/
theorem handleMiningSubmission_eq (sha256 : Bytes → Bytes) (submission : MiningSubmitMessage) :
    ∃ lookup : ClientProgram Bool, UngatedProgram lookup ∧ Owes settlesLookup (fun _ => False) lookup ∧
      handleMiningSubmission sha256 submission = Program.load.bind fun state =>
        (assert .clientAuthorization state.clientAuthorization.isSome "Client authorization is null").bind
          fun _ => awaitEntity.bind fun _ => lookup := by
  refine ⟨_, ?_, ?_, rfl⟩
  · refine ⟨trivial, ?_⟩
    intro job
    cases job with
    | none => exact (ungated_answer _).bind fun _ => trivial
    | some job =>
        refine ⟨trivial, ?_⟩
        intro jobTemplate
        apply ungated_assert_bind (by decide)
        cases jobTemplate with
        | none => trivial
        | some entry =>
            cases entry with
            | own jobTemplate => exact ungated_submitShare sha256 submission jobTemplate
            | inherited => trivial
  · exact fun _ => .inl trivial

/-- Past the version gate a submission owes its lookup. -/
theorem obliges_handleMiningSubmission (submission : MiningSubmitMessage) (past : ClientHistory) :
    ObligesLookup (handleMiningSubmission sha256 submission) past := by
  obtain ⟨lookup, ungated, owes, equal⟩ := handleMiningSubmission_eq sha256 submission
  rw [equal]
  intro state _
  cases state.clientAuthorization.isSome with
  | false =>
      constructor
      · intro gated
        cases gated
      · trivial
  | true =>
      constructor
      · intro _
        apply owes_awaitEntity.bind
        · exact fun _ _ => owes
        · intro thrown impossible
          cases impossible
      · exact (obliges_awaitEntity _).bind fun _ => ungated.obliges

theorem obliges_handleSubmitMessage (fields : Fields) (past : ClientHistory) :
    ObligesLookup (handleSubmitMessage sha256 fields) past := by
  have validates : UngatedProgram (validateSubmit fields) := ⟨trivial, makes_ofExcept⟩
  apply Obliges.bind (UngatedProgram.obliges (ungated_validateMessage validates) past)
  intro validated past
  cases validated with
  | error written => trivial
  | ok message =>
      intro state
      show ObligesLookup (if _ then _ else _) past
      split
      · apply UngatedProgram.obliges
        exact (ungated_answer _).bind fun _ => trivial
      · apply (obliges_handleMiningSubmission message past).joined.bind
        intro success past
        cases success with
        | false => trivial
        | true => exact UngatedProgram.obliges (ungated_answer _) past

/-- The start of the stratum asserts the authorization in the middle of its step. -/
theorem obliges_startWhenReady (past : ClientHistory) : ObligesLookup startWhenReady past := by
  intro state
  show ObligesLookup (if _ then _ else _) past
  split
  · apply Obliges.joined
    intro _
    constructor
    · intro gated
      cases gated
    intro state
    apply obliges_assert_bind rfl
    apply obliges_assert_bind
    · cases state.clientAuthorization.isSome <;> rfl
    apply UngatedProgram.obliges
    intro _
    refine ⟨trivial, fun cluster => ⟨trivial, fun rawDifficulty => ?_⟩⟩
    apply (ungated_answer _).bind
    intro success
    split
    · trivial
    · exact ⟨trivial, fun _ _ => trivial⟩
  · trivial

theorem obliges_dispatch (method : Option RequestMethod) (fields : Fields) (past : ClientHistory) :
    ObligesLookup (dispatch sha256 method fields) past := by
  cases method with
  | none => trivial
  | some method =>
      cases method with
      | subscribe => exact (UngatedProgram.obliges (ungated_handleSubscriptionMessage fields) past).joined
      | configure => exact (UngatedProgram.obliges (ungated_handleConfigureMessage fields) past).joined
      | authorize => exact (UngatedProgram.obliges (ungated_handleAuthorizationMessage fields) past).joined
      | suggestDifficulty => trivial
      | submit =>
          intro state
          show ObligesLookup (if !state.stratumInitialized then _ else _) past
          split
          · apply UngatedProgram.obliges
            exact ungated_endSocket.bind fun _ => trivial
          · exact (obliges_handleSubmitMessage fields past).joined

/-- Each task of a connection owes its lookups past the version gate. -/
theorem obliges_task (task : ClientTask) (past : ClientHistory) : ObligesLookup (task.program sha256) past := by
  have ends : ∀ past, ObligesLookup endSocket past := ungated_endSocket.obliges
  cases task with
  | destroy => exact ungated_destroy.obliges past
  | newMiningJob template =>
      have sends : UngatedProgram (sendNewMiningJob template) := ungated_sendNewMiningJob template
      exact ((sends.obliges past).joined).attempt fun _ => ends
  | line message =>
      apply Obliges.attempt _ fun _ => ends
      apply Obliges.joined
      cases message with
      | none => exact ends past
      | some parsedMessage =>
          apply Obliges.bind (UngatedProgram.obliges (makes_ofExcept _) past)
          intro method past
          apply (obliges_dispatch (RequestMethod.ofValue method) (requestFields parsedMessage) past).bind
          intro success past
          cases success with
          | false => trivial
          | true => exact obliges_startWhenReady past

end Obligations

/-- The submission of the thread has passed the version gate. -/
def GoesPastGate (me : ℕ) (message : MiningSubmitMessage) (trace : ClientTrace) : Prop :=
  ∃ past, past <:+ own me trace ∧ gatedMessage past = some message

/-- A submission past the version gate names no job that the service has added since its last clear. The
service answers the lookups of the thread. -/
structure NamesUnknownJob (service : JobsService) (history : JobsHistory) (me : ℕ)
    (message : MiningSubmitMessage) (trace : ClientTrace) : Prop where
  gated : GoesPastGate me message trace
  run : ServiceRun service history
  unknown : ∀ pair ∈ history.addedSinceClear, pair.1.jobId ≠ message.jobId
  jobs : ∀ jobId job, (me, .called (.getJobById jobId) job) ∈ trace → job = service.getJobById jobId
  templates : ∀ jobTemplateId template,
    (me, .called (.getJobTemplateById jobTemplateId) template) ∈ trace →
      template = service.getJobTemplateById jobTemplateId

/-- The thread passes no proof on, and it never fails the assertion of its template. -/
structure NeverMines (me : ℕ) (trace : ClientTrace) : Prop where
  unpaid : ∀ submission, (me, .issued (.submitProof submission)) ∉ trace
  asserted : (me, .called (.assert .jobTemplate false) ()) ∉ trace

/-- The thread answers its lookup with the error of a missing job at once, unless the socket is closed. -/
structure AnswersMissingJob (me : ℕ) (message : MiningSubmitMessage) (trace : ClientTrace) : Prop
    extends NeverMines me trace where
  answered : ∃ event job past,
    event :: .called (.getJobById message.jobId) job :: past <:+ own me trace ∧ answersMissing message event

section Lookups

variable {sha256 : Bytes → Bytes} {decoder : Decoder} {service : JobsService} {history : JobsHistory} {me : ℕ}
  {message : MiningSubmitMessage} {trace : ClientTrace}

/-- A job that the service does not hold is missing unless every object inherits its name. -/
theorem ServiceRun.getJobById_of_unknown (run : ServiceRun service history) {jobId : String}
    (unknown : ∀ pair ∈ history.addedSinceClear, pair.1.jobId ≠ jobId) :
    service.getJobById jobId = if jobId ∈ inheritedKeys then some .inherited else none := by
  have absent : service.jobs jobId = none := by
    cases stored : service.jobs jobId with
    | none => rfl
    | some job =>
        obtain ⟨template, since, sameId⟩ := (run.invariant.jobsExact jobId job).mp stored
        exact absurd sameId (unknown _ since)
  rw [JobsService.getJobById, Dictionary.read, absent]

variable {system : System ClientState ClientAnswer Thrown Unit ClientTask}

theorem exists_of_gatedMessage {past : ClientHistory} (gated : gatedMessage past = some message) :
    ∃ fields asked earlier, past = .called (.assert .clientAuthorization true) () :: .answered .turn () ::
      .issued .turn :: .answered (.validateSubmit fields) (.ok (.valid message)) ::
        .issued (.validateSubmit asked) :: earlier := by
  unfold gatedMessage at gated
  split at gated
  · obtain rfl := Option.some.inj gated
    exact ⟨_, _, _, rfl⟩
  · cases gated

/-- A lookup comes after the validation of its thread. -/
theorem not_looked_before_validation (accepted : Accepted (submissionMonitor sha256) trace)
    {asked : Fields} {past : ClientHistory} (validates : .issued (.validateSubmit asked) :: past <:+ own me trace)
    {jobId : String} {job : Option (Entry MiningJob)} : .called (.getJobById jobId) job ∉ past := by
  intro looked
  obtain ⟨earlier, suffix, rfl⟩ := exists_of_own_suffix validates
  obtain ⟨_, fresh⟩ := accepted _ _ _ suffix
  have found : job ∈ (submitProgress me earlier).jobs := mem_jobs_iff.mpr ⟨jobId, mem_own.mp looked⟩
  rw [fresh] at found
  exact List.not_mem_nil found

/-- A thread past the version gate looks up the job that its submission names. -/
theorem lookup_of_gated (accepted : Accepted (submissionMonitor sha256) trace)
    (gated : GoesPastGate me message trace) {jobId : String} {job : Option (Entry MiningJob)}
    {earlier : ClientTrace} (suffix : (me, .called (.getJobById jobId) job) :: earlier <:+ trace) :
    jobId = message.jobId ∧ (submitProgress me earlier).messages = [message] := by
  obtain ⟨past, inside, gated⟩ := gated
  obtain ⟨fields, asked, before, rfl⟩ := exists_of_gatedMessage gated
  obtain ⟨_, _, named, progressed, rfl⟩ := accepted _ _ _ suffix
  have looked : .called (.getJobById named.jobId) job :: own me earlier <:+ own me trace := by
    have owned := own_suffix me suffix
    rwa [own_cons_self] at owned
  have validates : .issued (.validateSubmit asked) :: before <:+ own me trace := by
    refine List.IsSuffix.trans ?_ inside
    exact ⟨[_, _, _, _], rfl⟩
  rcases List.suffix_or_suffix_of_suffix inside looked with older | newer
  · -- The lookup came after the gate, so the thread had validated this one message.
    have later : .answered (.validateSubmit fields) (.ok (.valid message)) ∈ own me earlier := by
      rcases List.suffix_cons_iff.mp older with equal | older
      · cases equal
      · exact older.subset (by simp)
    have validated : message ∈ (submitProgress me earlier).messages :=
      mem_messages_iff.mpr ⟨fields, mem_own.mp later⟩
    rw [progressed] at validated ⊢
    obtain rfl := List.mem_singleton.mp validated
    exact ⟨rfl, rfl⟩
  · -- The lookup came before the gate, so it came before the validation.
    have early : .called (.getJobById named.jobId) job ∈ before := by
      have member := newer.subset List.mem_cons_self
      simpa using member
    exact absurd early (not_looked_before_validation accepted validates)

/-- The thread of a lookup goes on before any other thread. -/
theorem exists_next_of_looks (reached : Reachable (clientSemantics sha256 decoder) {} system)
    {event : ClientEvent} {earlier : ClientTrace} (looks : event.looks = true)
    (suffix : (me, event) :: earlier <:+ system.trace) :
    ∃ index next, (index, next) :: (me, event) :: earlier <:+ system.trace ∧
      continuesLookup ((me, event) :: earlier) index next := by
  obtain ⟨kept, accepted⟩ := (submissionContract_proved sha256 decoder).reachable reached
  obtain ⟨later, whole⟩ := suffix
  rcases List.eq_nil_or_concat later with rfl | ⟨newer, ⟨index, next⟩, rfl⟩
  · have found := kept.found (me, event) (by rw [← whole]; rfl)
    rw [looks] at found
    cases found
  · have inside : (index, next) :: (me, event) :: earlier <:+ system.trace :=
      ⟨newer, by rw [← whole]; simp⟩
    exact ⟨index, next, inside, (accepted _ _ _ inside).1⟩

/-- After a found job the thread looks up its template and asserts that it is there. -/
theorem exists_asserted_template (reached : Reachable (clientSemantics sha256 decoder) {} system)
    {jobId : String} {job : Entry MiningJob} (looked : (me, .called (.getJobById jobId) (some job)) ∈ system.trace) :
    ∃ template, (me, .called (.getJobTemplateById (jobTemplateIdOf job)) template) ∈ system.trace ∧
      (me, .called (.assert .jobTemplate template.isSome) ()) ∈ system.trace := by
  obtain ⟨later, earlier, whole⟩ := List.append_of_mem looked
  have suffix : (me, .called (.getJobById jobId) (some job)) :: earlier <:+ system.trace := ⟨later, whole.symm⟩
  obtain ⟨index, next, inside, rfl, template, rfl⟩ := exists_next_of_looks reached rfl suffix
  obtain ⟨other, last, inside', rfl, rfl⟩ := exists_next_of_looks reached rfl inside
  exact ⟨template, inside.subset List.mem_cons_self, inside'.subset List.mem_cons_self⟩

/-- A template is looked up only for a job that was found. -/
theorem exists_found_job (accepted : Accepted (submissionMonitor sha256) trace)
    {jobTemplateId : Option String} {template : Option (Entry JobTemplate)}
    (looked : (me, .called (.getJobTemplateById jobTemplateId) template) ∈ trace) :
    ∃ jobId job, (me, .called (.getJobById jobId) (some job)) ∈ trace := by
  obtain ⟨earlier, older, continues, _⟩ := accepted.of_mem looked
  unfold continuesLookup at continues
  split at continues
  · obtain ⟨_, _, _, impossible⟩ := continues
    exact impossible.elim
  · rename_i index jobId job newest
    obtain ⟨rfl, _⟩ := continues
    exact ⟨jobId, job, older (List.mem_of_head? newest)⟩
  · cases continues.2
  · exact continues.elim

/-- The assertion of a template comes after its lookup. -/
theorem exists_asserted_lookup (accepted : Accepted (submissionMonitor sha256) trace) {holds : Bool}
    (asserted : (me, .called (.assert .jobTemplate holds) ()) ∈ trace) :
    ∃ jobTemplateId template, (me, .called (.getJobTemplateById jobTemplateId) template) ∈ trace := by
  obtain ⟨earlier, older, continues, _⟩ := accepted.of_mem asserted
  unfold continuesLookup at continues
  split at continues
  · obtain ⟨_, _, _, impossible⟩ := continues
    exact impossible.elim
  · obtain ⟨_, _, impossible⟩ := continues
    cases impossible
  · rename_i index jobTemplateId template newest
    obtain ⟨rfl, _⟩ := continues
    exact ⟨jobTemplateId, template, older (List.mem_of_head? newest)⟩
  · exact continues.elim

/-- A thread that finds no job never mines. -/
theorem neverMines_of_missing (accepted : Accepted (submissionMonitor sha256) trace)
    (missing : ∀ jobId job, (me, .called (.getJobById jobId) (some job)) ∉ trace) : NeverMines me trace := by
  constructor
  · intro submission paid
    obtain ⟨earlier, older, _, sources, _, progressed, _⟩ := accepted.of_mem paid
    have found : some sources.job ∈ (submitProgress me earlier).jobs := by
      rw [progressed]
      exact List.mem_singleton.mpr rfl
    obtain ⟨jobId, looked⟩ := mem_jobs_iff.mp found
    exact missing jobId sources.job (older looked)
  · intro asserted
    obtain ⟨jobTemplateId, template, looked⟩ := exists_asserted_lookup accepted asserted
    obtain ⟨jobId, job, found⟩ := exists_found_job accepted looked
    exact missing jobId job found

/-- An unknown job whose name no object inherits is not found. -/
theorem NamesUnknownJob.missing (names : NamesUnknownJob service history me message trace)
    (accepted : Accepted (submissionMonitor sha256) trace) (plain : message.jobId ∉ inheritedKeys)
    (jobId : String) (job : Entry MiningJob) : (me, .called (.getJobById jobId) (some job)) ∉ trace := by
  intro looked
  obtain ⟨later, earlier, whole⟩ := List.append_of_mem looked
  have suffix : (me, .called (.getJobById jobId) (some job)) :: earlier <:+ trace := ⟨later, whole.symm⟩
  obtain ⟨rfl, _⟩ := lookup_of_gated accepted names.gated suffix
  have answered := names.jobs _ _ looked
  rw [names.run.getJobById_of_unknown names.unknown, if_neg plain] at answered
  cases answered

/-- A job that is looked up and missing is answered at once. -/
theorem answered_of_missing (reached : Reachable (clientSemantics sha256 decoder) {} system)
    (gated : GoesPastGate me message system.trace) {jobId : String}
    (looked : (me, .called (.getJobById jobId) none) ∈ system.trace) :
    ∃ event job past, event :: .called (.getJobById message.jobId) job :: past <:+ own me system.trace ∧
      answersMissing message event := by
  have accepted := ((submissionContract_proved sha256 decoder).reachable reached).2
  obtain ⟨later, earlier, whole⟩ := List.append_of_mem looked
  have suffix : (me, .called (.getJobById jobId) none) :: earlier <:+ system.trace := ⟨later, whole.symm⟩
  obtain ⟨rfl, messages⟩ := lookup_of_gated accepted gated suffix
  obtain ⟨index, next, inside, rfl, named, progressed, answers⟩ := exists_next_of_looks reached rfl suffix
  have same : [message] = [named] := by
    rw [← messages, ← progressed, submitProgress_cons]
    rfl
  obtain rfl := List.singleton_inj.mp same
  have owned := own_suffix me inside
  rw [own_cons_self, own_cons_self] at owned
  exact ⟨next, none, own me earlier, owned, answers⟩

/-- A connection whose entity was not rejected has no failed entity. -/
theorem not_entityFailed (reached : Reachable (clientSemantics sha256 decoder) {} system)
    (kept : ¬ EntityRejected system.trace) : ¬ EntityFailed system.trace := by
  rintro (rejected | ⟨index, asserted, part, failed⟩)
  · exact kept rejected
  · have accepted := ((connectionContract_proved sha256 decoder).reachable reached).2
    obtain ⟨_, _, holds⟩ := accepted.of_mem failed
    cases holds part

/-- A thread that has ended past the version gate has looked its job up, unless the entity was rejected. -/
theorem exists_lookup_of_ended (reached : Reachable (clientSemantics sha256 decoder) {} system)
    (gated : GoesPastGate me message system.trace) (kept : ¬ EntityRejected system.trace)
    {result : Except Thrown Unit} (ended : system.threads[me]? = some (.ended result)) :
    ∃ jobId job, (me, .called (.getJobById jobId) job) ∈ system.trace := by
  obtain ⟨past, inside, gated⟩ := gated
  obtain ⟨fields, asked, before, rfl⟩ := exists_of_gatedMessage gated
  have triggered : (gatedMessage (.called (.assert .clientAuthorization true) () :: .answered .turn () ::
      .issued .turn :: .answered (.validateSubmit fields) (.ok (.valid message)) ::
        .issued (.validateSubmit asked) :: before)).isSome := rfl
  obtain ⟨event, settles, member⟩ := reached.obliged ended (fun task => obliges_task task _) inside triggered
  have whole := not_entityFailed reached kept
  unfold settlesLookup at settles
  split at settles
  · exact ⟨_, _, member⟩
  · exact absurd (.inr ⟨me, _, settles, member⟩) whole
  · exact absurd ⟨me, _, _, member⟩ kept
  · -- The entity promise was rejected before the thread awaited it.
    rename_i thrown
    obtain ⟨later, earlier, split⟩ := List.append_of_mem member
    have suffix : (me, .answered .creatingEntity (.error thrown)) :: earlier <:+ system.trace := ⟨later, split.symm⟩
    obtain ⟨state, threads, reached', admitted⟩ := reached.exists_answered suffix
    have core := ((submissionContract_proved sha256 decoder).reachable reached').1.core
    have older : earlier ⊆ system.trace := fun pair inside => suffix.subset (List.mem_cons_of_mem _ inside)
    exact absurd ((core.refused thrown admitted).mono older) whole
  · exact settles.elim

/-- A submission past the version gate that names an unknown job never mines unless every object inherits
the name. Its thread ends with the error of a missing job exactly when no object inherits the name and the
insertion of the entity was not rejected. -/
theorem unknown_job_answered_iff (reached : Reachable (clientSemantics sha256 decoder) {} system)
    (names : NamesUnknownJob service history me message system.trace) :
    (message.jobId ∉ inheritedKeys → NeverMines me system.trace) ∧
      ∀ result, system.threads[me]? = some (.ended result) →
        (AnswersMissingJob me message system.trace ↔
          message.jobId ∉ inheritedKeys ∧ ¬ EntityRejected system.trace) := by
  obtain ⟨kept, accepted⟩ := (submissionContract_proved sha256 decoder).reachable reached
  have never : message.jobId ∉ inheritedKeys → NeverMines me system.trace :=
    fun plain => neverMines_of_missing accepted (names.missing accepted plain)
  refine ⟨never, ?_⟩
  intro result ended
  constructor
  · rintro ⟨mines, event, job, past, answered, _⟩
    have looked : (me, .called (.getJobById message.jobId) job) ∈ system.trace := by
      apply mem_own.mp
      exact answered.subset (List.mem_cons_of_mem _ List.mem_cons_self)
    constructor
    · intro inherited
      have found := names.jobs _ _ looked
      rw [names.run.getJobById_of_unknown names.unknown, if_pos inherited] at found
      subst found
      obtain ⟨template, searched, asserted⟩ := exists_asserted_template reached looked
      have absent : template = none := by
        rw [names.templates _ _ searched]
        exact names.run.invariant.no_undefined_template
      rw [absent] at asserted
      exact mines.asserted asserted
    · obtain ⟨earlier, older, _, inserted, _⟩ := accepted.of_mem looked
      apply kept.core.exclusive
      exact inserted.mono fun pair inside => older (beforeStep_subset earlier inside)
  · rintro ⟨plain, unrejected⟩
    obtain ⟨jobId, job, looked⟩ := exists_lookup_of_ended reached names.gated unrejected ended
    cases job with
    | some job => exact absurd looked (names.missing accepted plain jobId job)
    | none => exact ⟨never plain, answered_of_missing reached names.gated looked⟩

end Lookups

/-- The jobs service of a stray submission has no jobs. -/
def strayOutcomes (jobId : String) : SubmitOutcomes :=
  { acceptingOutcomes with
    job := ({} : JobsService).getJobById jobId
    jobTemplate := ({} : JobsService).getJobTemplateById none }

/-- One connection starts and submits for a job with this id. -/
def straySession (jobId : String) : List ClientTask :=
  [requestTask 1 .subscribe [.string "miner"],
    requestTask 2 .configure [.array [.string "version-rolling"], .object []],
    requestTask 3 .authorize [.string "first.worker1", .string "x"],
    requestTask 4 .submit [.string "worker1", .string jobId, .string "00000000", .string "0",
      .string "00000000", .string "6000"]]

def straySystem (jobId : String) : System ClientState ClientAnswer Thrown Unit ClientTask :=
  (straySession jobId).foldl (System.after (clientSemantics id (stratumDecoder fun _ => true))
    (strayOutcomes jobId).environment) ⟨{}, [], []⟩

theorem straySystem_reachable {jobId : String} (quiet : ∀ pair ∈ (straySystem jobId).trace,
      pair.2.Asks fun call => call.awaitsPromise = false) :
    Reachable (clientSemantics id (stratumDecoder fun _ => true)) {} (straySystem jobId) := by
  have enabled : ∀ task ∈ straySession jobId, ∀ (state : ClientState) (trace : ClientTrace),
      (clientSemantics id (stratumDecoder fun _ => true)).mayStart state trace task := by
    intro task member state trace
    fin_cases member <;> trivial
  exact Reachable.afterAll (strayOutcomes jobId).admitted .refl enabled quiet

/-- The event is no lookup, or a service without jobs answers it. -/
def answeredByEmpty : ClientEvent → Bool
  | .called (.getJobById jobId) none => (({} : JobsService).getJobById jobId).isNone
  | .called (.getJobById jobId) (some .inherited) => jobId ∈ inheritedKeys
  | .called (.getJobTemplateById none) none => true
  | .called (.getJobById _) _ => false
  | .called (.getJobTemplateById _) _ => false
  | _ => true

/-- The last thread of a stray session names a job that the empty service does not know. -/
theorem exists_stray_message {jobId : String}
    (gates : ((own 3 (straySystem jobId).trace).tails.any fun past =>
      (gatedMessage past).map MiningSubmitMessage.jobId == some jobId) = true)
    (answers : ∀ pair ∈ (straySystem jobId).trace, answeredByEmpty pair.2 = true) :
    ∃ message, message.jobId = jobId ∧ NamesUnknownJob {} [] 3 message (straySystem jobId).trace := by
  obtain ⟨past, inside, gated⟩ := List.any_eq_true.mp gates
  obtain ⟨message, gated, sameId⟩ := Option.map_eq_some_iff.mp (eq_of_beq gated)
  refine ⟨message, sameId, ⟨past, (List.mem_tails _ _).mp inside, gated⟩, .initial, ?_, ?_, ?_⟩
  · intro pair member
    cases member
  · intro jobId job looked
    have answered := answers _ looked
    rcases job with _ | ⟨_ | _⟩
    · exact (Option.isNone_iff_eq_none.mp answered).symm
    · cases answered
    · exact (if_pos (of_decide_eq_true answered)).symm
  · intro jobTemplateId template looked
    have answered := answers _ looked
    cases jobTemplateId with
    | some jobTemplateId => cases template <;> cases answered
    | none =>
        cases template with
        | some template => cases answered
        | none => decide

theorem straySystem_threads (jobId : String) :
    ∃ result, (straySystem jobId).threads[3]? = some (.ended result) := ⟨_, rfl⟩

/-- The event is no failed insertion of the entity. -/
def ClientEvent.keepsEntity : ClientEvent → Bool
  | .answered (.insertClient _) (.error _) => false
  | _ => true

/-- The event is the failed assertion of a template by the submission of the session. -/
def failsTemplateAssertion : ℕ × ClientEvent → Bool
  | (3, .called (.assert .jobTemplate false) _) => true
  | _ => false

/-- A stray submission is answered with the error of a missing job. -/
theorem stray_submission_answered : ∃ message, message.jobId = "zz" ∧ NeverMines 3 (straySystem "zz").trace ∧
    AnswersMissingJob 3 message (straySystem "zz").trace := by
  have reached : Reachable (clientSemantics id (stratumDecoder fun _ => true)) {} (straySystem "zz") :=
    straySystem_reachable (by decide +kernel)
  obtain ⟨message, named, names⟩ := @exists_stray_message "zz" (by decide +kernel) (by decide +kernel)
  obtain ⟨result, ended⟩ := straySystem_threads "zz"
  have unrejected : ¬ EntityRejected (straySystem "zz").trace := by
    have inserted : ∀ pair ∈ (straySystem "zz").trace, ClientEvent.keepsEntity pair.2 = true := by
      decide +kernel
    rintro ⟨me, client, thrown, rejected⟩
    cases inserted _ rejected
  have plain : message.jobId ∉ inheritedKeys := by
    rw [named]
    decide
  have answered := unknown_job_answered_iff reached names
  exact ⟨message, named, answered.1 plain, (answered.2 result ended).mpr ⟨plain, unrejected⟩⟩

/-- A submission for the job `constructor` fails the assertion of its template and is never answered. -/
theorem inherited_job_fails_assertion :
    Reachable (clientSemantics id (stratumDecoder fun _ => true)) {} (straySystem "constructor") ∧
      ∃ message, message.jobId = "constructor" ∧
        NamesUnknownJob {} [] 3 message (straySystem "constructor").trace ∧
        (3, .called (.assert .jobTemplate false) ()) ∈ (straySystem "constructor").trace ∧
        ¬ AnswersMissingJob 3 message (straySystem "constructor").trace := by
  obtain ⟨message, named, names⟩ := @exists_stray_message "constructor" (by decide +kernel) (by decide +kernel)
  have failed : (3, .called (.assert .jobTemplate false) ()) ∈ (straySystem "constructor").trace := by
    have found : ∃ pair ∈ (straySystem "constructor").trace, failsTemplateAssertion pair = true := by
      decide +kernel
    obtain ⟨pair, member, shape⟩ := found
    unfold failsTemplateAssertion at shape
    split at shape
    · exact member
    · cases shape
  exact ⟨straySystem_reachable (by decide +kernel), message, named, names, failed,
    fun answers => answers.asserted failed⟩

end ComptoMiningPool
