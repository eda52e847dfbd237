import ComptoMiningPool.Async.Threads
import ComptoMiningPool.Client.Connection
import ComptoMiningPool.Client.Stores
import ComptoMiningPool.Client.Submission

/-
This file states what every interleaving of a connection keeps while its submissions wait for the entity,
look up their jobs, and pass their proofs on.
-/

namespace ComptoMiningPool

open JavaScript Async

namespace ClientEvent

/-- The event issues the insertion of the entity or answers it. -/
def touchesEntity : ClientEvent → Bool
  | .issued (.insertClient _) => true
  | .answered (.insertClient _) _ => true
  | _ => false

def sessionId? : ClientEvent → Option String
  | .called .randomBytes randomNumber => some (getRandomHexString randomNumber)
  | _ => none

/-- A thread goes on at once after a lookup. -/
def looks : ClientEvent → Bool
  | .called (.getJobById _) _ => true
  | .called (.getJobTemplateById _) _ => true
  | _ => false

def passesProof : ClientEvent → Bool
  | .issued (.submitProof _) => true
  | _ => false

def validated? : ClientEvent → Option MiningSubmitMessage
  | .answered (.validateSubmit _) (.ok (.valid message)) => some message
  | _ => none

/-- A job that was not found is an answer as well. -/
def lookedJob? : ClientEvent → Option (Option (Entry MiningJob))
  | .called (.getJobById _) job => some job
  | _ => none

def lookedTemplate? : ClientEvent → Option (Option (Entry JobTemplate))
  | .called (.getJobTemplateById _) template => some template
  | _ => none

end ClientEvent

/-- The session ids that the connection drew, newest first. -/
def sessionIds (trace : ClientTrace) : List String := trace.filterMap fun pair => ClientEvent.sessionId? pair.2

/-- The insertion of the entity was answered with success. -/
def EntityInserted (trace : ClientTrace) : Prop :=
  ∃ me client, (me, .answered (.insertClient client) (.ok ())) ∈ trace

def EntityRejected (trace : ClientTrace) : Prop :=
  ∃ me client thrown, (me, .answered (.insertClient client) (.error thrown)) ∈ trace

/-- The entity has no row because its insertion was rejected or one of its parts was missing. -/
def EntityFailed (trace : ClientTrace) : Prop :=
  EntityRejected trace ∨
    ∃ me asserted, asserted ∈ connectionParts ∧ (me, .called (.assert asserted false) ()) ∈ trace

/-- What a thread has validated, looked up, and found, newest first. -/
structure SubmitProgress where
  messages : List MiningSubmitMessage := []
  jobs : List (Option (Entry MiningJob)) := []
  templates : List (Option (Entry JobTemplate)) := []

def SubmitProgress.after (progress : SubmitProgress) : ClientEvent → SubmitProgress
  | .answered (.validateSubmit _) (.ok (.valid message)) =>
      { progress with messages := message :: progress.messages }
  | .called (.getJobById _) job => { progress with jobs := job :: progress.jobs }
  | .called (.getJobTemplateById _) template =>
      { progress with templates := template :: progress.templates }
  | _ => progress

def submitProgress (me : ℕ) (trace : ClientTrace) : SubmitProgress :=
  (own me trace).foldr (fun event progress => progress.after event) {}

/-- The result of a subscription names the session twice. -/
def subscriptionResult (sessionId : String) : List Json :=
  [.array [.array [.string "mining.notify", .string sessionId]], .string sessionId, .number 4]

/-- A missing job is answered with its error, unless the socket is closed. -/
def answersMissing (message : MiningSubmitMessage) : ClientEvent → Prop
  | .issued (.writeSocket line) => line = .error message.id .jobNotFound "Job not found" []
  | .called .startDestroy _ => True
  | _ => False

/-- The thread of a lookup goes on with its template or with its answer. -/
def continuesLookup (trace : ClientTrace) (me : ℕ) (event : ClientEvent) : Prop :=
  match trace.head? with
  | some (index, .called (.getJobById _) none) =>
      index = me ∧ ∃ message, (submitProgress me trace).messages = [message] ∧ answersMissing message event
  | some (index, .called (.getJobById _) (some job)) =>
      index = me ∧ ∃ answer, event = .called (.getJobTemplateById (jobTemplateIdOf job)) answer
  | some (index, .called (.getJobTemplateById _) template) =>
      index = me ∧ event = .called (.assert .jobTemplate template.isSome) ()
  | _ => match event with
      | .called (.getJobTemplateById _) _ => False
      | .called (.assert .jobTemplate _) _ => False
      | _ => True

/-- The values of one submission that its proof is made from. -/
structure ProofSources where
  message : MiningSubmitMessage
  job : Entry MiningJob
  template : JobTemplate

def ProofSources.progress (sources : ProofSources) : SubmitProgress :=
  ⟨[sources.message], [some sources.job], [some (.own sources.template)]⟩

/-- The version of a proof joins the version bits to the version of its template when the connection
rolls versions. -/
def ProofSources.Versions (sources : ProofSources) (configuration : Option ConfigurationMessage)
    (version : Number) : Prop :=
  match configuration with
  | some configuration =>
      if configuration.versionRolling then
        ¬ MaskExceeded configuration sources.message ∧ version =
          Number.or (.ofNat sources.template.block.version) (parseHex sources.message.versionMask.text)
      else version = .ofNat sources.template.block.version
  | none => version = .ofNat sources.template.block.version

/-- The monitor fixes where the session id comes from and where it goes, and what precedes an insertion,
a lookup, and a proof. -/
def submissionMonitor (sha256 : Bytes → Bytes) (trace : ClientTrace) (me : ℕ) (event : ClientEvent) :
    Prop :=
  continuesLookup trace me event ∧ match event with
  | .called .randomBytes _ => sessionIds trace = []
  | .issued (.writeSocket (.response _ (.array elements))) => ∃ sessionId,
      sessionIds trace = [sessionId] ∧ elements = subscriptionResult sessionId
  | .issued (.insertClient client) => (∀ pair ∈ trace, ClientEvent.touchesEntity pair.2 = false) ∧ ∃ sessionId,
      sessionIds trace = [sessionId] ∧ client.sessionId = some sessionId
  | .issued (.deleteClient sessionId) => sessionIds trace = [sessionId]
  | .issued (.validateSubmit _) => submitProgress me trace = {}
  | .called (.getJobById jobId) _ => EntityInserted (beforeStep trace) ∧ ∃ message,
      submitProgress me trace = ⟨[message], [], []⟩ ∧ jobId = message.jobId
  | .issued (.submitProof submission) => ∃ (sources : ProofSources) (sessionId : String),
      submitProgress me trace = sources.progress ∧ sessionIds trace = [sessionId] ∧
        submission.extraData = doubleSHA256 sha256 (Bytes.ofHex (extraDataText sources.template.block
          (some sessionId) sources.message.extraNonce2))
  | _ => True

/-- The session, the entity, and the configuration of a connection agree with its trace. -/
structure SubmissionCore (state : ClientState) (trace : ClientTrace) : Prop where
  session : sessionIds trace = state.extraNonceAndSessionId.toList
  begun : state.sessionStart.isSome = state.extraNonceAndSessionId.isSome
  untouched : state.creatingEntity = none →
    state.entity = false ∧ ∀ pair ∈ trace, ClientEvent.touchesEntity pair.2 = false
  single : ∀ first ∈ trace, ∀ second ∈ trace, ClientEvent.touchesEntity first.2 = true →
    ClientEvent.touchesEntity second.2 = true → first.1 = second.1
  inserted : state.entity = true ↔ EntityInserted trace
  exclusive : EntityInserted trace → ¬ EntityRejected trace
  settled : state.creatingEntity = some (.settled (.ok ())) → state.entity = true
  refused : ∀ thrown, state.creatingEntity = some (.settled (.error thrown)) → EntityFailed trace
  named : state.entity = true → state.extraNonceAndSessionId.isSome
  configured : ∀ configuration, state.clientConfiguration = some configuration → ∃ me fields,
    (me, .answered (.validateConfiguration fields) (.ok (.valid configuration))) ∈ trace

/-- The newest proof was made under the configuration that the connection holds. -/
def rolledProof (state : ClientState) (trace : ClientTrace) : Prop :=
  match trace.head? with
  | some (me, .issued (.submitProof submission)) => ∃ sources : ProofSources,
      submitProgress me trace = sources.progress ∧
        sources.Versions state.clientConfiguration submission.version
  | _ => True

/-- No thread waits in the middle of a lookup. -/
structure SubmissionInvariant (state : ClientState) (trace : ClientTrace) : Prop where
  core : SubmissionCore state trace
  found : ∀ pair, trace.head? = some pair → ClientEvent.looks pair.2 = false
  rolled : rolledProof state trace

def submissionContract (sha256 : Bytes → Bytes) (decoder : Decoder) :
    Contract ClientState ClientAnswer ClientTask where
  admits := clientAdmits decoder
  monitor := submissionMonitor sha256
  rely _ _ := True
  invariant := SubmissionInvariant

/-- A running thread has made its progress, and the last event of the trace is no request. -/
structure Running (me : ℕ) (progress : SubmitProgress) (state : ClientState) (trace : ClientTrace) :
    Prop where
  core : SubmissionCore state trace
  found : ∀ pair, trace.head? = some pair → ClientEvent.looks pair.2 = false
  awake : ∀ pair, trace.head? = some pair → ClientEvent.passesProof pair.2 = false
  progressed : submitProgress me trace = progress

/-- The entity of a steady thread was there when its step began. -/
structure Steady (me : ℕ) (progress : SubmitProgress) (state : ClientState) (trace : ClientTrace) : Prop
    extends Running me progress state trace where
  resumed : state.entity = true → EntityInserted (beforeStep trace)

/-- A neutral event leaves the session, the entity, and the lookups alone. -/
structure ClientEvent.Neutral (event : ClientEvent) : Prop where
  session : sessionId? event = none
  entity : touchesEntity event = false
  lookup : looks event = false
  proof : passesProof event = false

/-- An ordinary event belongs to an ordinary call or starts a thread. -/
def ClientEvent.Ordinary : ClientEvent → Prop
  | .started _ => True
  | .called request _ => request.Ordinary
  | .issued request => request.Ordinary
  | .answered request _ => request.Ordinary

section Events

variable {sha256 : Bytes → Bytes} {decoder : Decoder} {me : ℕ} {event : ClientEvent} {state : ClientState}
  {trace : ClientTrace} {progress : SubmitProgress}

theorem ClientEvent.Ordinary.neutral (ordinary : ClientEvent.Ordinary event) : ClientEvent.Neutral event := by
  cases event with
  | started task => exact ⟨rfl, rfl, rfl, rfl⟩
  | called request answer =>
      cases request with
      | randomBytes => exact ordinary.elim
      | getJobById jobId => exact ordinary.elim
      | getJobTemplateById jobTemplateId => exact ordinary.elim
      | _ => exact ⟨rfl, rfl, rfl, rfl⟩
  | issued request =>
      cases request with
      | insertClient client => exact ordinary.elim
      | submitProof submission => exact ordinary.elim
      | _ => exact ⟨rfl, rfl, rfl, rfl⟩
  | answered request answer =>
      cases request with
      | insertClient client => exact ordinary.elim
      | _ => exact ⟨rfl, rfl, rfl, rfl⟩

/-- An ordinary event makes no progress. -/
theorem ClientEvent.Ordinary.after (ordinary : ClientEvent.Ordinary event) : progress.after event = progress := by
  cases event with
  | started task => rfl
  | called request answer =>
      cases request with
      | getJobById jobId => exact ordinary.elim
      | getJobTemplateById jobTemplateId => exact ordinary.elim
      | _ => rfl
  | issued request => rfl
  | answered request answer =>
      cases request with
      | validateSubmit fields => exact ordinary.elim
      | _ => rfl

@[simp] theorem submitProgress_cons : submitProgress me ((me, event) :: trace) =
    (submitProgress me trace).after event := by
  simp [submitProgress]

theorem Extends.submitProgress_eq {before after : ClientTrace} (extension : Extends me before after) :
    submitProgress me after = submitProgress me before := by
  rw [submitProgress, extension.own_eq, submitProgress]

/-- The progress of a thread lists its validated messages and the answers to its lookups. -/
theorem submitProgress_eq (me : ℕ) (trace : ClientTrace) : submitProgress me trace =
    ⟨(own me trace).filterMap ClientEvent.validated?, (own me trace).filterMap ClientEvent.lookedJob?,
      (own me trace).filterMap ClientEvent.lookedTemplate?⟩ := by
  unfold submitProgress
  induction own me trace with
  | nil => rfl
  | cons event history ih =>
      rw [List.foldr_cons, ih]
      simp only [List.filterMap_cons]
      cases event with
      | started task => rfl
      | issued request => rfl
      | called request answer => cases request <;> rfl
      | answered request answer =>
          cases request with
          | validateSubmit fields =>
              rcases answer with thrown | validated
              · rfl
              · cases validated <;> rfl
          | _ => rfl

/-- The messages of the progress are those that the thread validated. -/
theorem mem_messages_iff {message : MiningSubmitMessage} : message ∈ (submitProgress me trace).messages ↔
    ∃ fields, (me, .answered (.validateSubmit fields) (.ok (.valid message))) ∈ trace := by
  rw [submitProgress_eq, List.mem_filterMap]
  constructor
  · rintro ⟨event, member, validated⟩
    unfold ClientEvent.validated? at validated
    split at validated
    · obtain rfl := Option.some.inj validated
      exact ⟨_, mem_own.mp member⟩
    · cases validated
  · rintro ⟨fields, member⟩
    exact ⟨_, mem_own.mpr member, rfl⟩

/-- The jobs of the progress are the answers to the lookups of the thread. -/
theorem mem_jobs_iff {job : Option (Entry MiningJob)} : job ∈ (submitProgress me trace).jobs ↔
    ∃ jobId, (me, .called (.getJobById jobId) job) ∈ trace := by
  rw [submitProgress_eq, List.mem_filterMap]
  constructor
  · rintro ⟨event, member, looked⟩
    unfold ClientEvent.lookedJob? at looked
    split at looked
    · obtain rfl := Option.some.inj looked
      exact ⟨_, mem_own.mp member⟩
    · cases looked
  · rintro ⟨jobId, member⟩
    exact ⟨_, mem_own.mpr member, rfl⟩

theorem mem_templates_iff {template : Option (Entry JobTemplate)} :
    template ∈ (submitProgress me trace).templates ↔
      ∃ jobTemplateId, (me, .called (.getJobTemplateById jobTemplateId) template) ∈ trace := by
  rw [submitProgress_eq, List.mem_filterMap]
  constructor
  · rintro ⟨event, member, looked⟩
    unfold ClientEvent.lookedTemplate? at looked
    split at looked
    · obtain rfl := Option.some.inj looked
      exact ⟨_, mem_own.mp member⟩
    · cases looked
  · rintro ⟨jobTemplateId, member⟩
    exact ⟨_, mem_own.mpr member, rfl⟩

/-- After an event that is no lookup only the events of a lookup are out of place. -/
theorem continuesLookup_of_found
    (found : ∀ pair, trace.head? = some pair → ClientEvent.looks pair.2 = false)
    (plain : match event with
      | .called (.getJobTemplateById _) _ => False
      | .called (.assert .jobTemplate _) _ => False
      | _ => True) : continuesLookup trace me event := by
  unfold continuesLookup
  cases trace with
  | nil => exact plain
  | cons pair trace =>
      obtain ⟨index, newest⟩ := pair
      have settled := found _ rfl
      cases newest with
      | called request answer =>
          cases request with
          | getJobById jobId => cases settled
          | getJobTemplateById jobTemplateId => cases settled
          | _ => exact plain
      | _ => exact plain

/-- After an event that is no lookup the monitor demands nothing for an ordinary event. -/
theorem monitor_of_ordinary
    (found : ∀ pair, trace.head? = some pair → ClientEvent.looks pair.2 = false)
    (ordinary : ClientEvent.Ordinary event) : submissionMonitor sha256 trace me event := by
  cases event with
  | started task => exact ⟨continuesLookup_of_found found trivial, trivial⟩
  | answered request answer => exact ⟨continuesLookup_of_found found trivial, trivial⟩
  | called request answer =>
      cases request with
      | randomBytes => exact ordinary.elim
      | getJobById jobId => exact ordinary.elim
      | getJobTemplateById jobTemplateId => exact ordinary.elim
      | assert asserted holds =>
          cases asserted with
          | jobTemplate => exact ordinary.elim
          | _ => exact ⟨continuesLookup_of_found found trivial, trivial⟩
      | _ => exact ⟨continuesLookup_of_found found trivial, trivial⟩
  | issued request =>
      cases request with
      | insertClient client => exact ordinary.elim
      | deleteClient sessionId => exact ordinary.elim
      | validateSubmit fields => exact ordinary.elim
      | submitProof submission => exact ordinary.elim
      | writeSocket line =>
          cases line with
          | response id result =>
              cases result with
              | array elements => exact ordinary.elim
              | _ => exact ⟨continuesLookup_of_found found trivial, trivial⟩
          | _ => exact ⟨continuesLookup_of_found found trivial, trivial⟩
      | _ => exact ⟨continuesLookup_of_found found trivial, trivial⟩

theorem sessionIds_cons_of_none (undrawn : ClientEvent.sessionId? event = none) :
    sessionIds ((me, event) :: trace) = sessionIds trace := by
  simp only [sessionIds, List.filterMap_cons, undrawn]

theorem EntityInserted.mono {before after : ClientTrace} (grows : before ⊆ after) :
    EntityInserted before → EntityInserted after := by
  rintro ⟨other, client, member⟩
  exact ⟨other, client, grows member⟩

theorem EntityFailed.mono {before after : ClientTrace} (grows : before ⊆ after) :
    EntityFailed before → EntityFailed after := by
  rintro (⟨other, client, thrown, member⟩ | ⟨other, asserted, part, member⟩)
  · exact .inl ⟨other, client, thrown, grows member⟩
  · exact .inr ⟨other, asserted, part, grows member⟩

/-- An event that leaves the entity alone neither inserts nor rejects it. -/
theorem entityInserted_cons (quiet : ClientEvent.touchesEntity event = false) :
    EntityInserted ((me, event) :: trace) ↔ EntityInserted trace := by
  constructor
  · rintro ⟨other, client, member⟩
    rcases List.mem_cons.mp member with equal | older
    · cases equal
      cases quiet
    · exact ⟨other, client, older⟩
  · rintro ⟨other, client, member⟩
    exact ⟨other, client, List.mem_cons_of_mem _ member⟩

theorem entityRejected_cons (quiet : ClientEvent.touchesEntity event = false) :
    EntityRejected ((me, event) :: trace) ↔ EntityRejected trace := by
  constructor
  · rintro ⟨other, client, thrown, member⟩
    rcases List.mem_cons.mp member with equal | older
    · cases equal
      cases quiet
    · exact ⟨other, client, thrown, older⟩
  · rintro ⟨other, client, thrown, member⟩
    exact ⟨other, client, thrown, List.mem_cons_of_mem _ member⟩

/-- An event that draws no session id and leaves the entity alone keeps the core. -/
theorem SubmissionCore.cons (core : SubmissionCore state trace)
    (undrawn : ClientEvent.sessionId? event = none) (quiet : ClientEvent.touchesEntity event = false) :
    SubmissionCore state ((me, event) :: trace) := by
  constructor
  · rw [sessionIds_cons_of_none undrawn]
    exact core.session
  · exact core.begun
  · intro uncreated
    refine ⟨(core.untouched uncreated).1, ?_⟩
    intro pair member
    rcases List.mem_cons.mp member with rfl | older
    · exact quiet
    · exact (core.untouched uncreated).2 pair older
  · intro first firstMember second secondMember firstTouches secondTouches
    rcases List.mem_cons.mp firstMember with rfl | firstOlder
    · rw [quiet] at firstTouches
      cases firstTouches
    · rcases List.mem_cons.mp secondMember with rfl | secondOlder
      · rw [quiet] at secondTouches
        cases secondTouches
      · exact core.single first firstOlder second secondOlder firstTouches secondTouches
  · rw [entityInserted_cons quiet]
    exact core.inserted
  · rw [entityInserted_cons quiet, entityRejected_cons quiet]
    exact core.exclusive
  · exact core.settled
  · exact fun thrown rejected => (core.refused thrown rejected).mono (List.subset_cons_self _ _)
  · exact core.named
  · intro configuration configured
    obtain ⟨other, fields, member⟩ := core.configured configuration configured
    exact ⟨other, fields, List.mem_cons_of_mem _ member⟩

/-- A store that leaves the session, the entity, and the configuration alone. -/
structure SameSubmission (before after : ClientState) : Prop where
  sessionStart : after.sessionStart = before.sessionStart
  extraNonceAndSessionId : after.extraNonceAndSessionId = before.extraNonceAndSessionId
  entity : after.entity = before.entity
  creatingEntity : after.creatingEntity = before.creatingEntity
  clientConfiguration : after.clientConfiguration = before.clientConfiguration

theorem sameSubmission_of_store (state after : ClientState) (store : OrdinaryStore state after) :
    SameSubmission state after := by
  cases store <;> exact ⟨rfl, rfl, rfl, rfl, rfl⟩

theorem SubmissionCore.same {after : ClientState} (core : SubmissionCore state trace)
    (same : SameSubmission state after) : SubmissionCore after trace := by
  constructor
  · rw [same.extraNonceAndSessionId]
    exact core.session
  · rw [same.sessionStart, same.extraNonceAndSessionId]
    exact core.begun
  · rw [same.creatingEntity, same.entity]
    exact core.untouched
  · exact core.single
  · rw [same.entity]
    exact core.inserted
  · exact core.exclusive
  · rw [same.creatingEntity, same.entity]
    exact core.settled
  · rw [same.creatingEntity]
    exact core.refused
  · rw [same.entity, same.extraNonceAndSessionId]
    exact core.named
  · rw [same.clientConfiguration]
    exact core.configured

/-- The proof that a trace passes last does not depend on the rest of the connection. -/
theorem rolledProof_of_awake
    (awake : ∀ pair, trace.head? = some pair → ClientEvent.passesProof pair.2 = false) :
    rolledProof state trace := by
  unfold rolledProof
  cases trace with
  | nil => trivial
  | cons pair trace =>
      obtain ⟨index, newest⟩ := pair
      have asleep := awake _ rfl
      cases newest with
      | issued request =>
          cases request with
          | submitProof submission => cases asleep
          | _ => trivial
      | _ => trivial

theorem Running.invariant (running : Running me progress state trace) : SubmissionInvariant state trace :=
  ⟨running.core, running.found, rolledProof_of_awake running.awake⟩

/-- A neutral event of a running thread leaves it running. -/
theorem Running.neutral (running : Running me progress state trace) (neutral : ClientEvent.Neutral event) :
    Running me (progress.after event) state ((me, event) :: trace) := by
  refine ⟨running.core.cons neutral.session neutral.entity, ?_, ?_, ?_⟩
  · intro pair newest
    obtain rfl := Option.some.inj newest
    exact neutral.lookup
  · intro pair newest
    obtain rfl := Option.some.inj newest
    exact neutral.proof
  · rw [submitProgress_cons, running.progressed]

/-- An ordinary call leaves a thread running. -/
theorem Running.called (running : Running me progress state trace) (request : ClientCall)
    (answer : ClientAnswer request) (ordinary : request.Ordinary) :
    Running me progress state ((me, .called request answer) :: trace) := by
  have event : ClientEvent.Ordinary (.called request answer) := ordinary
  have after := running.neutral event.neutral
  rwa [event.after] at after

theorem Running.monitor_called (running : Running me progress state trace) (request : ClientCall)
    (answer : ClientAnswer request) (ordinary : request.Ordinary) :
    (submissionContract sha256 decoder).monitor trace me (.called request answer) :=
  monitor_of_ordinary running.found ordinary

theorem Running.monitor_issued (running : Running me progress state trace) (request : ClientCall)
    (ordinary : request.Ordinary) : (submissionContract sha256 decoder).monitor trace me (.issued request) :=
  monitor_of_ordinary running.found ordinary

theorem Running.same {after : ClientState} (running : Running me progress state trace)
    (same : SameSubmission state after) : Running me progress after trace :=
  ⟨running.core.same same, running.found, running.awake, running.progressed⟩

theorem Steady.neutral (steady : Steady me progress state trace) (neutral : ClientEvent.Neutral event)
    (continues : event.resumes = false) :
    Steady me (progress.after event) state ((me, event) :: trace) := by
  refine ⟨steady.toRunning.neutral neutral, ?_⟩
  rw [beforeStep_cons_of_not_resumes continues]
  exact steady.resumed

/-- An ordinary call leaves a thread steady. -/
theorem Steady.called (steady : Steady me progress state trace) (request : ClientCall)
    (answer : ClientAnswer request) (ordinary : request.Ordinary) :
    Steady me progress state ((me, .called request answer) :: trace) := by
  refine ⟨steady.toRunning.called request answer ordinary, ?_⟩
  rw [beforeStep_cons_of_not_resumes rfl]
  exact steady.resumed

theorem Steady.same {after : ClientState} (steady : Steady me progress state trace)
    (same : SameSubmission state after) : Steady me progress after trace := by
  refine ⟨steady.toRunning.same same, ?_⟩
  rw [same.entity]
  exact steady.resumed

/-- A call that ends a lookup leaves its thread steady. -/
theorem Steady.of_called {request : ClientCall} {answer : ClientAnswer request}
    (core : SubmissionCore state ((me, .called request answer) :: trace))
    (found : ClientEvent.looks (.called request answer) = false)
    (progressed : submitProgress me ((me, .called request answer) :: trace) = progress)
    (resumed : state.entity = true → EntityInserted (beforeStep trace)) :
    Steady me progress state ((me, .called request answer) :: trace) := by
  refine ⟨⟨core, ?_, ?_, progressed⟩, ?_⟩
  · intro pair newest
    obtain rfl := Option.some.inj newest
    exact found
  · intro pair newest
    obtain rfl := Option.some.inj newest
    rfl
  · rw [beforeStep_cons_of_not_resumes rfl]
    exact resumed

/-- An answer finds the entity as the other threads left it. -/
theorem SubmissionInvariant.steady (kept : SubmissionInvariant state trace)
    (neutral : ClientEvent.Neutral event) (resumes : event.resumes = true)
    (progressed : submitProgress me trace = progress) :
    Steady me (progress.after event) state ((me, event) :: trace) := by
  refine ⟨⟨kept.core.cons neutral.session neutral.entity, ?_, ?_, ?_⟩, ?_⟩
  · intro pair newest
    obtain rfl := Option.some.inj newest
    exact neutral.lookup
  · intro pair newest
    obtain rfl := Option.some.inj newest
    exact neutral.proof
  · rw [submitProgress_cons, progressed]
  · rw [beforeStep_cons_of_resumes resumes]
    exact kept.core.inserted.mp

end Events

/-- The programs that leave the session, the entity, the configuration, and the lookups alone. -/
def ordinaryFrame : Frame ClientState ClientCall := clientFrame SameSubmission ClientCall.Ordinary

/-- A program that keeps to the ordinary frame. -/
abbrev OrdinaryProgram {V : Type} (program : ClientProgram V) : Prop := ordinaryFrame.Covers program

theorem ordinaryFrame_turn (state : ClientState) : ordinaryFrame.allowed state .turn := trivial

/-- A thread at rest between its awaits has made some progress. -/
def Resting (me : ℕ) (state : ClientState) (trace : ClientTrace) : Prop :=
  ∃ progress, Steady me progress state trace

section Rules

variable {sha256 : Bytes → Bytes} {decoder : Decoder} {me : ℕ} {V : Type} {state : ClientState}
  {trace : ClientTrace} {progress : SubmitProgress}

/-- A thread awaits a request that the monitor allows and resumes steady. -/
theorem wp_await {request : ClientCall} {next : ClientAnswer request → ClientProgram V}
    {post : Post ClientState ClientAnswer Thrown V ClientTask}
    (monitored : (submissionContract sha256 decoder).monitor trace me (.issued request))
    (kept : SubmissionInvariant state ((me, .issued request) :: trace))
    (progressed : submitProgress me trace = progress)
    (neutral : ∀ answer, ClientEvent.Neutral (.answered request answer))
    (continues : ∀ state' trace' answer, SubmissionInvariant state' trace' →
      clientAdmits decoder me state' trace' request answer → trace ⊆ trace' →
      Steady me (progress.after (.answered request answer)) state' ((me, .answered request answer) :: trace') →
      wp (submissionContract sha256 decoder) me (next answer) post state'
        ((me, .answered request answer) :: trace')) :
    wp (submissionContract sha256 decoder) me (.await request next) post state trace := by
  refine ⟨monitored, kept, ?_⟩
  intro state' trace' _ extension kept' answer admitted
  have same : submitProgress me trace' = progress := by
    rw [Extends.submitProgress_eq extension, submitProgress_cons, progressed]
    rfl
  refine ⟨⟨continuesLookup_of_found kept'.found trivial, trivial⟩, ?_⟩
  apply continues state' trace' answer kept' admitted
  · exact fun pair member => extension.mem (List.mem_cons_of_mem _ member)
  · exact kept'.steady (neutral answer) rfl same

/-- An ordinary request leaves the invariant. -/
theorem Steady.issued (steady : Steady me progress state trace) {request : ClientCall}
    (neutral : ClientEvent.Neutral (.issued request)) :
    SubmissionInvariant state ((me, .issued request) :: trace) :=
  (steady.toRunning.neutral neutral).invariant

/-- A steady thread stays steady in an ordinary program. -/
theorem steady_between (sha256 : Bytes → Bytes) (decoder : Decoder) (me : ℕ) (progress : SubmitProgress) :
    ordinaryFrame.Between (submissionContract sha256 decoder) me (Steady me progress) where
  stable _ := trivial
  called := by
    intro state trace request answer steady ordinary
    exact ⟨steady.monitor_called request answer ordinary, steady.called request answer ordinary⟩
  awaited := by
    intro state trace request steady ordinary
    have event : ClientEvent.Ordinary (.issued request) := ordinary
    refine ⟨steady.monitor_issued request ordinary, steady.issued event.neutral, ?_⟩
    intro state' trace' answer _ extension kept
    have answered : ClientEvent.Ordinary (.answered request answer) := ordinary
    have same : submitProgress me trace' = progress := by
      rw [Extends.submitProgress_eq extension, submitProgress_cons, event.after, steady.progressed]
    have after := kept.steady answered.neutral rfl same
    rw [answered.after] at after
    have monitored : submissionMonitor sha256 trace' me (.answered request answer) :=
      monitor_of_ordinary kept.found answered
    exact ⟨monitored, after⟩
  stored steady same := ⟨trivial, steady.same same⟩

theorem wp_of_ordinary {program : ClientProgram V} (ordinary : OrdinaryProgram program)
    (steady : Steady me progress state trace) :
    wp (submissionContract sha256 decoder) me program (fun _ => Steady me progress) state trace :=
  Frame.wp_of_holds_between (steady_between sha256 decoder me progress) (ordinary state trivial) steady

theorem resting_between (sha256 : Bytes → Bytes) (decoder : Decoder) (me : ℕ) :
    ordinaryFrame.Between (submissionContract sha256 decoder) me (Resting me) :=
  Frame.Between.exists fun progress => steady_between sha256 decoder me progress

theorem wp_of_resting {program : ClientProgram V} (ordinary : OrdinaryProgram program)
    (resting : Resting me state trace) :
    wp (submissionContract sha256 decoder) me program (fun _ => Resting me) state trace :=
  Frame.wp_of_holds_between (resting_between sha256 decoder me) (ordinary state trivial) resting

/-- A turn at the end of a program leaves a thread at rest. -/
theorem wp_joined_of_resting {program : ClientProgram V}
    (holds : wp (submissionContract sha256 decoder) me program (fun _ => Resting me) state trace) :
    wp (submissionContract sha256 decoder) me (program.joined .turn) (fun _ => Resting me) state trace :=
  Frame.wp_joined_of_between (fun _ => resting_between sha256 decoder me) ordinaryFrame_turn holds

theorem closes_ordinary (request : ClientCall) (closes : request.ClosesSocket) : request.Ordinary :=
  closes.ordinary

/-- The first event of a write is the request of its line or the end of a closed socket. -/
theorem wp_write_first {line : Line}
    (opened : (submissionContract sha256 decoder).monitor trace me (.issued (.writeSocket line)) ∧
      SubmissionInvariant state ((me, .issued (.writeSocket line)) :: trace))
    (closed : (submissionContract sha256 decoder).monitor trace me (.called .startDestroy ()) ∧
      Steady me progress state ((me, .called .startDestroy ()) :: trace))
    (progressed : submitProgress me trace = progress) :
    wp (submissionContract sha256 decoder) me (write line) (fun _ => Steady me progress) state trace := by
  have fails : OrdinaryProgram writeFailed :=
    covers_writeFailed sameSubmission_of_store closes_ordinary
  unfold write
  rw [wp_attempt]
  show wp _ me (if !state.destroyed && !state.writableEnded then _ else _) _ state trace
  split
  · refine wp_await opened.1 opened.2 progressed (fun _ => ⟨rfl, rfl, rfl, rfl⟩) ?_
    intro state' trace' answer _ _ _ steady
    cases answer with
    | ok written => exact steady
    | error thrown =>
        show wp _ me writeFailed _ state' _
        exact wp_of_ordinary fails steady
  · intro answer _
    refine ⟨closed.1, ?_⟩
    have closes : OrdinaryProgram writeToClosed :=
      covers_writeToClosed sameSubmission_of_store closes_ordinary
    have rest := (closes state trivial).2 answer
    apply wp_mono _ (Frame.wp_of_holds_between (steady_between sha256 decoder me progress) rest closed.2)
    intro result state trace steady
    cases result with
    | ok written => exact steady
    | error thrown => exact wp_of_ordinary fails steady

/-- A handler that ends with a write of a special line stays steady. -/
theorem wp_reply_first {line : Line}
    (opened : (submissionContract sha256 decoder).monitor trace me (.issued (.writeSocket line)) ∧
      SubmissionInvariant state ((me, .issued (.writeSocket line)) :: trace))
    (closed : (submissionContract sha256 decoder).monitor trace me (.called .startDestroy ()) ∧
      Steady me progress state ((me, .called .startDestroy ()) :: trace))
    (progressed : submitProgress me trace = progress) :
    wp (submissionContract sha256 decoder) me ((write line).joined .turn) (fun _ => Steady me progress) state
      trace :=
  Frame.wp_joined_of_between (fun _ => steady_between sha256 decoder me progress) ordinaryFrame_turn
    (wp_write_first opened closed progressed)

/-- A validation leaves its answer in the trace, and a validated message is the one of its answer. -/
theorem wp_validated {M : Type} (request : ClientCall)
    (result : ClientAnswer request → Except Thrown (Validated M))
    (steady : Steady me progress state trace)
    (monitored : (submissionContract sha256 decoder).monitor trace me (.issued request))
    (issued : ClientEvent.Neutral (.issued request))
    (answered : ∀ answer, ClientEvent.Neutral (.answered request answer)) :
    wp (submissionContract sha256 decoder) me
      ((validateMessage ((Program.awaiting request).bind fun answer => .ofExcept (result answer))).joined
        .turn)
      (fun outcome state trace => ∃ answer, Steady me (progress.after (.answered request answer)) state trace ∧
        ((∀ message, outcome = .ok (.ok message) → result answer = .ok (.valid message)) ∧
          (me, .answered request answer) ∈ trace)) state trace := by
  have between : ∀ outcome : Except Thrown (Except Bool M), ordinaryFrame.Between
      (submissionContract sha256 decoder) me fun state trace => ∃ answer,
        Steady me (progress.after (.answered request answer)) state trace ∧
          ((∀ message, outcome = .ok (.ok message) → result answer = .ok (.valid message)) ∧
            (me, .answered request answer) ∈ trace) := by
    intro outcome
    apply Frame.Between.exists
    intro answer
    apply (steady_between sha256 decoder me _).and_mono
    intro before after grows fact
    exact ⟨fact.1, grows fact.2⟩
  apply Frame.wp_joined_of_between between ordinaryFrame_turn
  refine wp_await monitored (steady.issued issued) steady.progressed answered ?_
  intro state' trace' answer _ _ _ steady
  show wp _ me ((Program.ofExcept (result answer)).bind _) _ state' _
  cases validated : result answer with
  | error thrown =>
      refine ⟨answer, steady, ?_, List.mem_cons_self⟩
      intro message impossible
      cases impossible
  | ok decoded =>
      cases decoded with
      | valid message =>
          refine ⟨answer, steady, ?_, List.mem_cons_self⟩
          intro other same
          cases same
          exact validated
      | invalid id errors =>
          show wp _ me (((write _).joined .turn).bind fun written => .done (Except.error written)) _
            state' _
          rw [wp_bind]
          have answers : OrdinaryProgram ((write (.error id .otherUnknown "Validation error"
              (errors.map ValidationError.value))).joined ClientCall.turn) :=
            covers_answer sameSubmission_of_store (fun _ ordinary => ordinary) trivial
          have recorded := (steady_between sha256 decoder me
            (progress.after (.answered request answer))).and_mono
              (fun before after grows (member : (me, .answered request answer) ∈ before) => grows member)
          apply wp_mono _ (Frame.wp_of_holds_between recorded (answers state' trivial)
            ⟨steady, List.mem_cons_self⟩)
          intro written state trace after
          cases written with
          | ok written =>
              refine ⟨answer, after.1, ?_, after.2⟩
              intro message impossible
              cases impossible
          | error thrown =>
              refine ⟨answer, after.1, ?_, after.2⟩
              intro message impossible
              cases impossible

end Rules

end ComptoMiningPool
