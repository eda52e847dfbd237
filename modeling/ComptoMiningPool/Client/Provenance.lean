import ComptoMiningPool.Client.Negotiation
import ComptoMiningPool.Client.Responses
import ComptoMiningPool.Client.VersionBits
import ComptoMiningPool.Jobs.Service

/-
This file connects a connection to the jobs service. It proves from which submit, which job, and which negotiated
mask each proof of the connection is made.
-/

namespace ComptoMiningPool

open JavaScript Async

/-- The event asks the jobs service. -/
def ClientEvent.asksJobs : ClientEvent → Bool
  | .called (.addJob _) _ => true
  | .called (.getJobById _) _ => true
  | .called (.getJobTemplateById _) _ => true
  | _ => false

/-- The jobs service emits a template of the pool, adds a job for another connection, or counts its intervals. -/
inductive JobsStep (publicKey : Bytes) : JobsService → JobsHistory → JobsService → JobsHistory → Prop where
  | emit {service history} (hash : Bytes) (milliseconds : ℕ) (clearJobs : Bool) :
      JobsStep publicKey service history
        (service.emitTemplate (getBlockTemplate publicKey hash milliseconds) clearJobs).1
        (.emitted (service.emitTemplate (getBlockTemplate publicKey hash milliseconds) clearJobs).2 :: history)
  | add {service history} (template : JobTemplate) (latest : JobsHistory.latestTemplate history = some template) :
      JobsStep publicKey service history (service.addJob template).1
        (.added (service.addJob template).2 template :: history)
  | schedule {service history} (lastIntervalCount : Option ℤ) (skipNext : Bool) :
      JobsStep publicKey service history
        { service with lastIntervalCount := lastIntervalCount, skipNext := skipNext } history

/-- The jobs service answers the calls of the connection between its own steps. -/
inductive Served (publicKey : Bytes) : ClientTrace → JobsService → JobsHistory → Prop where
  | initial : Served publicKey [] {} []
  | step {trace service history service' history'} (served : Served publicKey trace service history)
      (goes : JobsStep publicKey service history service' history') : Served publicKey trace service' history'
  | addJob {trace service history} (me : ℕ) (template : JobTemplate) (served : Served publicKey trace service history)
      (latest : JobsHistory.latestTemplate history = some template) :
      Served publicKey ((me, .called (.addJob template) (service.addJob template).2) :: trace)
        (service.addJob template).1 (.added (service.addJob template).2 template :: history)
  | getJobById {trace service history} (me : ℕ) (jobId : String) (served : Served publicKey trace service history) :
      Served publicKey ((me, .called (.getJobById jobId) (service.getJobById jobId)) :: trace) service history
  | getJobTemplateById {trace service history} (me : ℕ) (jobTemplateId : Option String)
      (served : Served publicKey trace service history) : Served publicKey
        ((me, .called (.getJobTemplateById jobTemplateId) (service.getJobTemplateById jobTemplateId)) :: trace)
        service history
  | other {trace service history} (me : ℕ) (event : ClientEvent) (unasked : ClientEvent.asksJobs event = false)
      (served : Served publicKey trace service history) : Served publicKey ((me, event) :: trace) service history

/-- The history of the service backs its answer to the event. -/
def JobsHistory.Backs (history : JobsHistory) : ClientEvent → Prop
  | .called (.addJob template) job => (job, template) ∈ history.added
  | .called (.getJobById jobId) (some (.own job)) => job.jobId = jobId ∧ ∃ template, (job, template) ∈ history.added
  | .called (.getJobTemplateById jobTemplateId) (some (.own template)) =>
      template ∈ history.templates ∧ jobTemplateId = some template.blockData.id
  | _ => True

/-- The history backs every answer, and each of its templates is a template of the pool. -/
structure ServedInvariant (publicKey : Bytes) (trace : ClientTrace) (service : JobsService) (history : JobsHistory) :
    Prop where
  run : ServiceRun service history
  backed : ∀ pair ∈ trace, history.Backs pair.2
  emitted : ∀ template ∈ history.templates, ∃ hash milliseconds,
    template.block = getBlockTemplate publicKey hash milliseconds

section Service

variable {publicKey : Bytes} {trace : ClientTrace} {service service' : JobsService} {history history' : JobsHistory}

theorem JobsHistory.Backs.mono (added : history.added ⊆ history'.added) (templates : history.templates ⊆ history'.templates)
    {event : ClientEvent} (backs : history.Backs event) : history'.Backs event := by
  unfold JobsHistory.Backs at backs ⊢
  split at backs
  · exact added backs
  · exact ⟨backs.1, backs.2.imp fun _ member => added member⟩
  · exact ⟨templates backs.1, backs.2⟩
  · trivial

/-- A step of the service keeps its jobs and templates, and a new template is a template of the pool. -/
theorem ServedInvariant.step (kept : ServedInvariant publicKey trace service history)
    (goes : JobsStep publicKey service history service' history') :
    ServedInvariant publicKey trace service' history' := by
  cases goes with
  | emit hash milliseconds clearJobs =>
      refine ⟨kept.run.emit _ clearJobs, ?_, ?_⟩
      · intro pair member
        refine JobsHistory.Backs.mono ?_ ?_ (kept.backed pair member)
        · exact List.Subset.refl _
        · exact List.subset_cons_self _ _
      · intro template member
        rcases List.mem_cons.mp member with rfl | older
        · exact ⟨hash, milliseconds, rfl⟩
        · exact kept.emitted template older
  | add template latest =>
      refine ⟨kept.run.add template latest, ?_, kept.emitted⟩
      intro pair member
      refine JobsHistory.Backs.mono ?_ ?_ (kept.backed pair member)
      · exact List.subset_cons_self _ _
      · exact List.Subset.refl _
  | schedule lastIntervalCount skipNext =>
      exact ⟨kept.run.schedule lastIntervalCount skipNext, kept.backed, kept.emitted⟩

theorem ServedInvariant.cons (kept : ServedInvariant publicKey trace service history) {me : ℕ} {event : ClientEvent}
    (backs : history.Backs event) : ServedInvariant publicKey ((me, event) :: trace) service history :=
  ⟨kept.run, List.forall_mem_cons.mpr ⟨backs, kept.backed⟩, kept.emitted⟩

/-- A stored template has a printed number as its id, and the text of a missing id is no such number. -/
theorem ServiceInvariant.template_named (kept : ServiceInvariant service history) {jobTemplateId : Option String}
    {template : JobTemplate} (found : service.getJobTemplateById jobTemplateId = some (.own template)) :
    template ∈ history.templates ∧ jobTemplateId = some template.blockData.id := by
  rw [JobsService.getJobTemplateById, Dictionary.read_eq_own] at found
  obtain ⟨member, named⟩ := kept.blocksKeyed _ _ found
  refine ⟨member, ?_⟩
  cases jobTemplateId with
  | some text => exact congrArg some named.symm
  | none =>
      obtain ⟨number, _, printed⟩ := kept.templatesIssued template member
      exact absurd (printed.symm.trans named) (hexText_ne_of_not_digits (by decide) number)

theorem ServiceRun.backs_job (run : ServiceRun service history) (jobId : String) :
    history.Backs (.called (.getJobById jobId) (service.getJobById jobId)) := by
  cases found : service.getJobById jobId with
  | none => trivial
  | some entry =>
      cases entry with
      | inherited => trivial
      | own job =>
          obtain ⟨template, since, named⟩ := (run.invariant.jobsExact jobId job).mp (Dictionary.read_eq_own.mp found)
          exact ⟨named, template, history.addedSinceClear_subset since⟩

theorem ServiceRun.backs_template (run : ServiceRun service history) (jobTemplateId : Option String) :
    history.Backs (.called (.getJobTemplateById jobTemplateId) (service.getJobTemplateById jobTemplateId)) := by
  cases found : service.getJobTemplateById jobTemplateId with
  | none => trivial
  | some entry =>
      cases entry with
      | inherited => trivial
      | own template => exact run.invariant.template_named found

theorem JobsHistory.backs_of_unasked {event : ClientEvent} (unasked : ClientEvent.asksJobs event = false) :
    history.Backs event := by
  unfold ClientEvent.asksJobs at unasked
  unfold JobsHistory.Backs
  split at unasked <;> simp_all

theorem Served.invariant (served : Served publicKey trace service history) :
    ServedInvariant publicKey trace service history := by
  induction served with
  | initial =>
      refine ⟨.initial, ?_, ?_⟩
      · exact fun _ member => absurd member List.not_mem_nil
      · exact fun _ member => absurd member List.not_mem_nil
  | step served goes kept => exact kept.step goes
  | addJob me template served latest kept => exact (kept.step (.add template latest)).cons List.mem_cons_self
  | getJobById me jobId served kept => exact kept.cons (kept.run.backs_job jobId)
  | getJobTemplateById me jobTemplateId served kept => exact kept.cons (kept.run.backs_template jobTemplateId)
  | other me event unasked served kept => exact kept.cons (JobsHistory.backs_of_unasked unasked)

/-- An id names one job of the service and one template. -/
theorem ServedInvariant.job_unique (kept : ServedInvariant publicKey trace service history)
    {first second : MiningJob × JobTemplate} (one : first ∈ history.added) (two : second ∈ history.added)
    (same : first.1.jobId = second.1.jobId) : first = second :=
  List.inj_on_of_nodup_map kept.run.invariant.jobIdsDistinct one two same

theorem ServedInvariant.template_unique (kept : ServedInvariant publicKey trace service history)
    {first second : JobTemplate} (one : first ∈ history.templates) (two : second ∈ history.templates)
    (same : first.blockData.id = second.blockData.id) : first = second :=
  List.inj_on_of_nodup_map kept.run.invariant.templateIdsDistinct one two same

end Service

/-- The proof is made from a submit that its thread handles, from the job that this submit names, and from a
mask that the connection has negotiated. -/
structure MadeFrom (sha256 : Bytes → Bytes) (publicKey : Bytes) (history : JobsHistory) (trace : ClientTrace)
    (me : ℕ) (submission : Submission) (message : MiningSubmitMessage) (job : MiningJob) (template : JobTemplate) :
    Prop where
  handles : ∃ fields, Handles (own me trace) .submit fields ∧ MiningSubmitMessage.decode fields = .ok (.valid message)
  added : (job, template) ∈ history.added
  named : job.jobId = message.jobId
  block : ∃ hash milliseconds, template.block = getBlockTemplate publicKey hash milliseconds
  extraData : ∃ sessionId, sessionIds trace = [sessionId] ∧
    submission.extraData = doubleSHA256 sha256 (Bytes.ofHex (sessionId ++ message.extraNonce2))
  nonce : submission.nonce = parseHex message.nonce
  timestamp : submission.timestamp = parseHex message.ntime
  version : ∃ configuration, ConfigurationValidated configuration trace ∧ if configuration.versionRolling then
    ¬ MaskExceeded configuration message ∧
      submission.version = Number.or (.ofNat 0x20000000) (parseHex message.versionMask.text)
    else submission.version = .ofNat 0x20000000

section Provenance

variable {sha256 : Bytes → Bytes} {isPublicKey : String → Bool} {publicKey : Bytes} {service : JobsService}
  {history : JobsHistory} {system : System ClientState ClientAnswer Thrown Unit ClientTask} {me : ℕ}

/-- A thread handles one request. -/
theorem Reachable.handles_unique {decoder : Decoder} (reached : Reachable (clientSemantics sha256 decoder) {} system)
    {first second : RequestMethod} {fields fields' : Fields} (one : Handles (own me system.trace) first fields)
    (two : Handles (own me system.trace) second fields') : first = second ∧ fields = fields' := by
  obtain ⟨request, value, started, named, method, rfl⟩ := one
  obtain ⟨request', value', started', named', method', rfl⟩ := two
  cases reached.started_unique (mem_own.mp started) (mem_own.mp started')
  cases named.symm.trans named'
  exact ⟨Option.some.inj (method.symm.trans method'), rfl⟩

/-- The template of a looked up job is looked up under the id that the job carries. -/
theorem lookup_of_template {trace : ClientTrace} (accepted : Accepted (submissionMonitor sha256) trace)
    {jobTemplateId : Option String} {template : Option (Entry JobTemplate)}
    (looked : (me, .called (.getJobTemplateById jobTemplateId) template) ∈ trace) :
    ∃ jobId job, (me, .called (.getJobById jobId) (some job)) ∈ trace ∧ jobTemplateId = jobTemplateIdOf job := by
  obtain ⟨earlier, older, continues, _⟩ := accepted.of_mem looked
  unfold continuesLookup at continues
  split at continues
  · obtain ⟨_, _, _, impossible⟩ := continues
    exact impossible.elim
  · rename_i index jobId job newest
    obtain ⟨rfl, answer, same⟩ := continues
    cases same
    exact ⟨jobId, job, older (List.mem_of_head? newest), rfl⟩
  · cases continues.2
  · exact continues.elim

/-- A drawn session id stays the only one. -/
theorem sessionIds_of_suffix {decoder : Decoder} (reached : Reachable (clientSemantics sha256 decoder) {} system)
    {earlier : ClientTrace} (grows : earlier <:+ system.trace) {sessionId : String}
    (drawn : sessionIds earlier = [sessionId]) : sessionIds system.trace = [sessionId] := by
  have kept := ((submissionContract_proved sha256 decoder).reachable reached).1.core.session
  have inside : sessionIds earlier <:+ sessionIds system.trace := grows.filterMap _
  rw [drawn] at inside
  cases held : system.state.extraNonceAndSessionId with
  | none =>
      rw [kept, held] at inside
      cases List.suffix_nil.mp inside
  | some other =>
      rw [kept, held] at inside ⊢
      have same : sessionId = other := by simpa using inside.subset (List.mem_singleton_self sessionId)
      rw [same, Option.toList_some]

/-- The job of a proof was looked up under the name that its message gives. -/
theorem lookup_of_progress {earlier : ClientTrace} (accepted : Accepted (submissionMonitor sha256) earlier)
    {sources : ProofSources} (progressed : submitProgress me earlier = sources.progress) :
    (me, .called (.getJobById sources.message.jobId) (some sources.job)) ∈ earlier := by
  have found : some sources.job ∈ (submitProgress me earlier).jobs := by
    rw [progressed]
    exact List.mem_singleton_self _
  obtain ⟨jobId, looked⟩ := mem_jobs_iff.mp found
  obtain ⟨before, older, _, _, message, fresh, rfl⟩ := accepted.of_mem looked
  have validated : message ∈ (submitProgress me before).messages := by
    rw [fresh]
    exact List.mem_singleton_self _
  obtain ⟨fields, answered⟩ := mem_messages_iff.mp validated
  have same : message ∈ (submitProgress me earlier).messages := mem_messages_iff.mpr ⟨fields, older answered⟩
  rw [progressed] at same
  obtain rfl := List.mem_singleton.mp same
  exact looked

/-- The template of a proof was looked up under the id that its job carries. -/
theorem template_of_progress {earlier : ClientTrace} (accepted : Accepted (submissionMonitor sha256) earlier)
    {sources : ProofSources} (progressed : submitProgress me earlier = sources.progress) :
    (me, .called (.getJobTemplateById (jobTemplateIdOf sources.job)) (some (.own sources.template))) ∈ earlier := by
  have found : some (.own sources.template) ∈ (submitProgress me earlier).templates := by
    rw [progressed]
    exact List.mem_singleton_self _
  obtain ⟨jobTemplateId, looked⟩ := mem_templates_iff.mp found
  obtain ⟨jobId, job, named, rfl⟩ := lookup_of_template accepted looked
  have same : some job ∈ (submitProgress me earlier).jobs := mem_jobs_iff.mpr ⟨jobId, named⟩
  rw [progressed] at same
  obtain rfl := Option.some.inj (List.mem_singleton.mp same)
  exact looked

/-- A served proof takes the job that its message names and the template that the service emitted for it. -/
theorem ServedInvariant.of_progress (kept : ServedInvariant publicKey system.trace service history)
    {earlier : ClientTrace} (grows : earlier <:+ system.trace)
    (accepted : Accepted (submissionMonitor sha256) earlier) {sources : ProofSources}
    (progressed : submitProgress me earlier = sources.progress) :
    ∃ job, (job, sources.template) ∈ history.added ∧ job.jobId = sources.message.jobId ∧
      ∃ hash milliseconds, sources.template.block = getBlockTemplate publicKey hash milliseconds := by
  have looked := kept.backed _ (grows.subset (lookup_of_progress accepted progressed))
  obtain ⟨emitted, named⟩ := kept.backed _ (grows.subset (template_of_progress accepted progressed))
  cases entry : sources.job with
  | inherited =>
      rw [entry] at named
      cases named
  | own job =>
      rw [entry] at looked named
      obtain ⟨sameJob, template, added⟩ := looked
      obtain ⟨issued, sameId⟩ := kept.run.invariant.jobsTemplate _ added
      obtain rfl := kept.template_unique issued emitted (sameId.symm.trans (Option.some.inj named))
      exact ⟨job, added, sameJob, kept.emitted _ emitted⟩

theorem ProofSources.progress_injective {first second : ProofSources} (same : first.progress = second.progress) :
    first = second := by
  cases first
  cases second
  cases same
  rfl

/-- The message of a proof is the submit that the thread handles. -/
theorem handles_of_progress (reached : Reachable (clientSemantics sha256 (stratumDecoder isPublicKey)) {} system)
    {submission : Submission} (member : (me, .issued (.submitProof submission)) ∈ system.trace) {earlier : ClientTrace}
    (grows : earlier <:+ system.trace) {sources : ProofSources} (progressed : submitProgress me earlier = sources.progress) :
    (∃ fields, Handles (own me system.trace) .submit fields ∧
      MiningSubmitMessage.decode fields = .ok (.valid sources.message)) ∧
        submission.nonce = parseHex sources.message.nonce ∧ submission.timestamp = parseHex sources.message.ntime := by
  have validated : sources.message ∈ (submitProgress me earlier).messages := by
    rw [progressed]
    exact List.mem_singleton_self _
  obtain ⟨fields, answered⟩ := mem_messages_iff.mp validated
  obtain ⟨_, _, _, decoded⟩ := reached.admitted.of_mem (grows.subset answered)
  have handles : ∀ {event history method fields}, event :: history <:+ own me system.trace →
      Handles history method fields → Handles (own me system.trace) method fields := by
    intro event history method fields suffix handles
    exact handles.mono (List.Subset.trans (List.subset_cons_self _ _) suffix.subset)
  obtain ⟨past, inside, own⟩ := Reachable.answersOwn reached (grows.subset answered)
  obtain ⟨past', inside', fields', message, own', valid, nonce, timestamp⟩ := Reachable.answersOwn reached member
  -- The thread handles one request, so that both messages are decoded from the same fields.
  obtain ⟨_, rfl⟩ := Reachable.handles_unique reached (handles inside own) (handles inside' own')
  cases decoded.trans valid
  exact ⟨⟨fields, handles inside own, valid⟩, nonce, timestamp⟩

/-- A proof that a connection hands over is made from the submit of its own thread and the job that this submit
names. -/
theorem ServedInvariant.madeFrom
    (reached : Reachable (clientSemantics sha256 (stratumDecoder isPublicKey)) {} system)
    (kept : ServedInvariant publicKey system.trace service history) {submission : Submission}
    (member : (me, .issued (.submitProof submission)) ∈ system.trace) : ∃ message job template,
      MadeFrom sha256 publicKey history system.trace me submission message job template := by
  obtain ⟨earlier, suffix⟩ := exists_cons_suffix member
  have grows : earlier <:+ system.trace := (List.suffix_cons _ _).trans suffix
  -- The connection is judged at the moment of the handover, and the service at the end.
  obtain ⟨state, threads, before⟩ := reached.exists_issued suffix
  obtain ⟨invariant, accepted⟩ := (submissionContract_proved sha256 (stratumDecoder isPublicKey)).reachable before
  obtain ⟨⟨_, sources, sessionId, progressed, drawn, extraData⟩, older⟩ := accepted_cons.mp accepted
  obtain ⟨sources', progressed', versions⟩ := invariant.rolled
  obtain rfl : sources' = sources := by
    apply ProofSources.progress_injective
    rw [← progressed', ← progressed, submitProgress_cons]
    rfl
  obtain ⟨job, added, named, hash, milliseconds, block⟩ :=
    kept.of_progress grows older progressed
  refine ⟨sources'.message, job, sources'.template, ?_⟩
  obtain ⟨handles, nonce, timestamp⟩ := handles_of_progress reached member grows progressed
  refine ⟨handles, added, named, ⟨hash, milliseconds, block⟩, ⟨sessionId, ?_, ?_⟩, nonce, timestamp, ?_⟩
  · exact sessionIds_of_suffix reached grows drawn
  · rw [extraData, extraDataText, block]
    simp [getBlockTemplate]
  · obtain ⟨negotiated, _⟩ := (negotiationContract_proved sha256 isPublicKey).reachable before
    obtain ⟨configuration, held⟩ := Option.isSome_iff_exists.mp (negotiated.passed me submission rfl)
    refine ⟨configuration, (negotiated.stored configuration held).mono suffix.subset, ?_⟩
    have version : sources'.template.block.version = 0x20000000 := by
      rw [block]
      rfl
    change state.clientConfiguration = some configuration at held
    change sources'.Versions state.clientConfiguration submission.version at versions
    rw [held, ProofSources.Versions, version] at versions
    exact versions

end Provenance

/-- Every proof of the connection is made from a job of the service. -/
def ProvesJobs (sha256 : Bytes → Bytes) (publicKey : Bytes) (history : JobsHistory) (trace : ClientTrace) : Prop :=
  ∀ me submission, (me, .issued (.submitProof submission)) ∈ trace → ∃ message job template,
    MadeFrom sha256 publicKey history trace me submission message job template

/-- While the jobs service emits templates, clears its jobs, and serves other connections, each proof that a
connection hands over is made from the submit of its own thread and the job that this submit names. -/
theorem connection_proves_jobs (sha256 : Bytes → Bytes) (isPublicKey : String → Bool) {publicKey : Bytes}
    {service : JobsService} {history : JobsHistory} {system : System ClientState ClientAnswer Thrown Unit ClientTask}
    (reached : Reachable (clientSemantics sha256 (stratumDecoder isPublicKey)) {} system)
    (served : Served publicKey system.trace service history) : ProvesJobs sha256 publicKey history system.trace :=
  fun _ _ issued => served.invariant.madeFrom reached issued

deriving instance DecidableEq for BlockTemplate, BlockData, JobTemplate

deriving instance DecidableEq for Entry

/-- The service answers an event as it has been answered. -/
def JobsService.replay (service : JobsService) (history : JobsHistory) :
    ClientEvent → Option (JobsService × JobsHistory)
  | .called (.addJob template) job =>
      if JobsHistory.latestTemplate history = some template ∧ job = (service.addJob template).2 then
        some ((service.addJob template).1, .added (service.addJob template).2 template :: history)
      else none
  | .called (.getJobById jobId) job => if job = service.getJobById jobId then some (service, history) else none
  | .called (.getJobTemplateById jobTemplateId) template =>
      if template = service.getJobTemplateById jobTemplateId then some (service, history) else none
  | _ => some (service, history)

def JobsService.replayAll (service : JobsService) (history : JobsHistory) :
    ClientTrace → Option (JobsService × JobsHistory)
  | [] => some (service, history)
  | (_, event) :: trace => (replayAll service history trace).bind fun played => played.1.replay played.2 event

section Replays

variable {publicKey : Bytes} {trace : ClientTrace} {service service' : JobsService} {history history' : JobsHistory}

theorem Served.replay (served : Served publicKey trace service history) (me : ℕ) {event : ClientEvent}
    (played : service.replay history event = some (service', history')) :
    Served publicKey ((me, event) :: trace) service' history' := by
  unfold JobsService.replay at played
  split at played
  · split at played
    · rename_i template job answered
      cases played
      rw [answered.2]
      exact .addJob me template served answered.1
    · cases played
  · split at played
    · rename_i jobId job answered
      cases played
      rw [answered]
      exact .getJobById me jobId served
    · cases played
  · split at played
    · rename_i jobTemplateId template answered
      cases played
      rw [answered]
      exact .getJobTemplateById me jobTemplateId served
    · cases played
  · cases played
    apply Served.other me event _ served
    unfold ClientEvent.asksJobs
    split <;> simp_all

/-- A service that can replay the trace has served it. -/
theorem Served.replayAll (opened : Served publicKey [] service history)
    (played : service.replayAll history trace = some (service', history')) :
    Served publicKey trace service' history' := by
  induction trace generalizing service' history' with
  | nil =>
      cases played
      exact opened
  | cons pair trace ih =>
      obtain ⟨⟨before, earlier⟩, replayed, newest⟩ := Option.bind_eq_some_iff.mp played
      exact (ih replayed).replay pair.1 newest

end Replays

/-- The service has emitted its first template. -/
def openedJobs : JobsService × JobTemplate :=
  ({} : JobsService).emitTemplate (getBlockTemplate (List.replicate 32 7) (List.replicate 32 1) 0) false

/-- The service has added a job for its first template. -/
def joinedJobs : JobsService × MiningJob := openedJobs.1.addJob openedJobs.2

theorem openedJobs_served : Served (List.replicate 32 7) [] openedJobs.1 [.emitted openedJobs.2] :=
  .step .initial (.emit (List.replicate 32 1) 0 false)

theorem joinedJobs_served : Served (List.replicate 32 7) [] joinedJobs.1
    [.added joinedJobs.2 openedJobs.2, .emitted openedJobs.2] :=
  .step openedJobs_served (.add openedJobs.2 rfl)

/-- A pool whose jobs service has one job accepts every proof. -/
def servedPool (history : ClientHistory) : (call : ClientCall) → ClientAnswer call
  | .addJob template => (openedJobs.1.addJob template).2
  | .getJobById jobId => joinedJobs.1.getJobById jobId
  | .getJobTemplateById jobTemplateId => joinedJobs.1.getJobTemplateById jobTemplateId
  | call => acceptingOutcomes.environment history call

theorem servedPool_admitted (me : ℕ) (history : ClientHistory) (state : ClientState) (trace : ClientTrace)
    (call : ClientCall) (other : call.awaitsPromise = false) :
    clientAdmits (stratumDecoder fun _ => true) me state trace call (servedPool history call) := by
  have admitted := acceptingOutcomes.admitted me history state trace call other
  cases call with
  | addJob template => trivial
  | getJobById jobId => trivial
  | getJobTemplateById jobTemplateId => trivial
  | _ => exact admitted

def servedSystem : System ClientState ClientAnswer Thrown Unit ClientTask :=
  miningSession.foldl (System.after (clientSemantics id (stratumDecoder fun _ => true)) servedPool) ⟨{}, [], []⟩

theorem servedSystem_reachable :
    Reachable (clientSemantics id (stratumDecoder fun _ => true)) {} servedSystem := by
  have quiet : ∀ pair ∈ servedSystem.trace, pair.2.Asks fun call => call.awaitsPromise = false := by
    decide +kernel
  have enabled : ∀ task ∈ miningSession, ∀ (state : ClientState) (trace : ClientTrace),
      (clientSemantics id (stratumDecoder fun _ => true)).mayStart state trace task := by
    intro task member state trace
    fin_cases member <;> trivial
  exact Reachable.afterAll servedPool_admitted .refl enabled quiet

/-- The session hands over one proof, and it is made from the job of the service. -/
theorem connection_proves_jobs_session :
    (servedSystem.trace.any fun pair => ClientEvent.passesProof pair.2) = true ∧
      ∃ history, ProvesJobs id (List.replicate 32 7) history servedSystem.trace := by
  refine ⟨by decide +kernel, ?_⟩
  have played : (joinedJobs.1.replayAll [.added joinedJobs.2 openedJobs.2, .emitted openedJobs.2]
      servedSystem.trace).isSome = true := by decide +kernel
  obtain ⟨⟨service, history⟩, replayed⟩ := Option.isSome_iff_exists.mp played
  exact ⟨history, connection_proves_jobs _ _ servedSystem_reachable (joinedJobs_served.replayAll replayed)⟩

end ComptoMiningPool
