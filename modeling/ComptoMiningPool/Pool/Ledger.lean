import ComptoMiningPool.Async.Bursts
import ComptoMiningPool.Async.Calls
import ComptoMiningPool.Client.Handover
import ComptoMiningPool.Rpc.Receipts

/-
This file puts any number of connections before one chain service. It proves that the service has minted and paid
for each share that a connection accepts, and that it pays for no share twice.
-/

namespace ComptoMiningPool

open JavaScript Async

/-- The chain service runs the submission that a connection hands over. -/
def handedTask : ClientCall → Option RpcTask
  | .submitProof submission => some (.submitProof submission)
  | _ => none

/-- The connection receives the reply of its submission or the error that the submission has thrown. -/
def GivesReply : (call : ClientCall) → Except Thrown (Option (Reply Bool)) → ClientAnswer call → Prop
  | .submitProof _, result, answer => result = answer.map fun proofReply => some proofReply.reply
  | _, _, _ => False

/-- The connections share the chain service. -/
def poolDelegation (sha256 : Bytes → Bytes) (isPublicKey : String → Bool) (service : RpcService) :
    Delegation ClientState ClientAnswer Thrown Unit ClientTask RpcState RpcAnswer Thrown (Option (Reply Bool))
      RpcTask where
  caller := clientSemantics sha256 (stratumDecoder isPublicKey)
  opens := {}
  service := service.replies
  task := handedTask
  gives := GivesReply

/-- A mining pool has connections, a chain service, and a ledger of the submissions that the service runs. -/
abbrev MiningPool (sha256 : Bytes → Bytes) (isPublicKey : String → Bool) (service : RpcService) :=
  Hub (poolDelegation sha256 isPublicKey service)

/-- The chain service accepts the proof. -/
def ClientEvent.acceptsProof : ClientEvent → Bool
  | .answered (.submitProof _) (.ok proofReply) =>
      match proofReply.reply with
      | .result _ => true
      | .error _ => false
  | _ => false

theorem ClientEvent.acceptsProof_eq {event : ClientEvent} (accepts : event.acceptsProof = true) :
    ∃ submission proofReply, event = .answered (.submitProof submission) (.ok proofReply) ∧
      proofReply.reply = .result true := by
  unfold ClientEvent.acceptsProof at accepts
  split at accepts
  · rename_i submission proofReply
    refine ⟨submission, proofReply, rfl, ?_⟩
    rcases proofReply.decided with accepted | refused
    · exact accepted
    · split at accepts
      · rename_i same
        rw [same] at refused
        cases refused
      · cases accepts
  · cases accepts

/-- A mint or a silent failure. -/
def RpcEvent.settles (event : RpcEvent) : Bool := RpcEvent.mints event || RpcEvent.silent event

variable {sha256 : Bytes → Bytes} {isPublicKey : String → Bool} {service : RpcService} {initial : RpcState}

namespace MiningPool

variable {pool : MiningPool sha256 isPublicKey service}

/-- The thread of the service works for this thread of the connection. It has minted and paid for the submission, or
one of its chain requests has failed silently. -/
structure Backs (pool : MiningPool sha256 isPublicKey service) (thread : ℕ) (call : Call ClientAnswer ClientTask)
    (submission : Submission) : Prop where
  listed : (thread, call) ∈ pool.ledger
  asks : call.request = .submitProof submission
  paid : PaidFor service submission (own thread pool.service.trace) ∨ hushed (own thread pool.service.trace) = true

/-- A thread of the service that gave its caller a success has paid. -/
theorem backs_of_gives (sound : pool.Sound initial) {thread : ℕ} {call : Call ClientAnswer ClientTask}
    {submission : Submission} {result : Except Thrown (Option (Reply Bool))} (listed : (thread, call) ∈ pool.ledger)
    (asks : call.request = .submitProof submission) (ended : pool.service.threads[thread]? = some (.ended result))
    (accepted : result = .ok (some (.result true))) : pool.Backs thread call submission := by
  refine ⟨listed, asks, ?_⟩
  obtain ⟨label, events, delegated, owned, follows⟩ := sound.follows listed ended
  rw [owned]
  change handedTask call.request = some label at delegated
  rw [asks] at delegated
  obtain rfl := Option.some.inj delegated
  subst accepted
  exact paid_of_follows follows

theorem backs_of_answered (sound : pool.Sound initial) {index me : ℕ}
    {connection : System ClientState ClientAnswer Thrown Unit ClientTask} {submission : Submission}
    {proofReply : ProofReply} {history : ClientHistory} (found : pool.callers[index]? = some connection)
    (answered : .answered (.submitProof submission) (.ok proofReply) :: history <:+ own me connection.trace)
    (accepted : proofReply.reply = .result true) :
    ∃ thread, pool.Backs thread ⟨index, me, .submitProof submission, history⟩ submission := by
  obtain ⟨thread, result, listed, ended, given⟩ := (sound.callers found).2 me _ _ history answered rfl
  refine ⟨thread, backs_of_gives sound listed rfl ended ?_⟩
  change result = .ok (some proofReply.reply) at given
  rw [given, accepted]

end MiningPool

/-- A thread has written the success line of its submit, and it has not refused the mask of the submit. -/
structure AcceptsShare (trace : ClientTrace) (me : ℕ) : Prop where
  submits : ∃ event, (me, event) ∈ trace ∧ ClientEvent.startsSubmit event = true
  written : ∃ id, (me, .issued (.writeSocket (.response id (.bool true)))) ∈ trace
  unrefused : ∀ message, (me, .issued (.writeSocket (invalidMaskLine message))) ∉ trace

/-- A thread that handles a submit handles no other method. -/
theorem startsSubmit_handles {connection : System ClientState ClientAnswer Thrown Unit ClientTask}
    (reached : Reachable (clientSemantics sha256 (stratumDecoder isPublicKey)) {} connection) {me : ℕ}
    (submits : ∃ event, (me, event) ∈ connection.trace ∧ ClientEvent.startsSubmit event = true)
    {history : ClientHistory} (suffix : history <:+ own me connection.trace) {method : RequestMethod}
    {fields : Fields} (handles : Handles history method fields) : method = .submit := by
  obtain ⟨event, member, starts⟩ := submits
  obtain ⟨request, value, started, named, isMethod, _⟩ := handles
  unfold ClientEvent.startsSubmit at starts
  split at starts
  · rename_i other
    have same := reached.started_unique member (mem_own.mp (suffix.subset started))
    cases same
    rw [named] at starts
    have submit : RequestMethod.ofValue value = some .submit := of_decide_eq_true starts
    exact Option.some.inj (isMethod.symm.trans submit)
  · cases starts

/-- The chain service has accepted the proof of an accepted share. -/
theorem AcceptsShare.replied {connection : System ClientState ClientAnswer Thrown Unit ClientTask}
    (reached : Reachable (clientSemantics sha256 (stratumDecoder isPublicKey)) {} connection) {me : ℕ}
    (accepts : AcceptsShare connection.trace me) : ∃ submission proofReply history,
      .answered (.submitProof submission) (.ok proofReply) :: history <:+ own me connection.trace ∧
        proofReply.reply = .result true := by
  obtain ⟨id, written⟩ := accepts.written
  obtain ⟨history, suffix, answers⟩ := Reachable.answersOwn reached written
  have inside : history <:+ own me connection.trace := (List.suffix_cons _ _).trans suffix
  have only : ∀ {method fields}, Handles history method fields → method = .submit :=
    startsSubmit_handles reached accepts.submits inside
  change Answers (stratumDecoder isPublicKey) history (.response id (.bool true)) at answers
  generalize line : Line.response id (.bool true) = written at answers
  cases answers with
  | @notified template job _ started added built =>
      obtain ⟨params, rfl, _⟩ := MiningJob.response_ok built
      cases line
  | difficulty initialized => cases line
  | invalid handles rejects => cases line
  | subscribed clientId handles valid => cases only handles
  | configured handles valid => cases only handles
  | authorized handles valid => cases only handles
  | refused handles valid refusal => cases line
  | @accepted fields message handles valid paid =>
      rcases paid with ⟨submission, proofReply, answered, same⟩ | refused
      · obtain ⟨earlier, suffix⟩ := exists_cons_suffix answered
        exact ⟨submission, proofReply, earlier, suffix.trans inside, same⟩
      · exact absurd (mem_own.mp (inside.subset refused)) (accepts.unrefused message)

/-- The chain service has minted and paid for each accepted share in a thread of its own. It works once for each
line of each connection, and each thread mints once and pays once. -/
structure PaysShares (pool : MiningPool sha256 isPublicKey service) : Prop where
  accepted : ∀ {index connection me}, pool.callers[index]? = some connection → AcceptsShare connection.trace me →
    ∃ thread call submission, pool.Backs thread call submission ∧ call.caller = index ∧ call.thread = me
  counted : pool.count ClientEvent.acceptsProof ≤ pool.service.trace.countP fun pair => RpcEvent.settles pair.2
  workers : (pool.ledger.map Prod.fst).Nodup
  shares : (pool.ledger.map fun entry => (entry.2.caller, entry.2.thread)).Nodup
  mints : ((pool.service.trace.filter fun pair => RpcEvent.mints pair.2).map Prod.fst).Nodup
  transfers : ((pool.service.trace.filter fun pair => RpcEvent.sendsTransfer pair.2).map Prod.fst).Nodup

/-- A request that the service runs hands a proof over. -/
theorem handedTask_eq {request : ClientCall} {task : RpcTask} (delegated : handedTask request = some task) :
    ∃ submission, request = .submitProof submission ∧ task = .submitProof submission := by
  cases request with
  | submitProof submission => exact ⟨submission, rfl, (Option.some.inj delegated).symm⟩
  | _ => cases delegated

section Pool

variable {pool : MiningPool sha256 isPublicKey service}

/-- A thread of a connection asks the service once. -/
theorem MiningPool.call_unique (sound : pool.Sound initial) {first second : ℕ}
    {one two : Call ClientAnswer ClientTask} (listed : (first, one) ∈ pool.ledger)
    (listed' : (second, two) ∈ pool.ledger) (caller : one.caller = two.caller) (thread : one.thread = two.thread) :
    one = two := by
  have costs : ∀ {worker : ℕ} {call : Call ClientAnswer ClientTask}, (worker, call) ∈ pool.ledger →
      0 < (Event.issued call.request : ClientEvent).cost ClientCall.proofs := by
    intro worker call listed
    obtain ⟨_, task, delegated, _⟩ := sound.begun listed
    obtain ⟨submission, asked, _⟩ := handedTask_eq delegated
    rw [asked]
    exact Nat.one_pos
  obtain ⟨asks, connection, found, suffix⟩ := sound.asked listed
  obtain ⟨asks', connection', found', suffix'⟩ := sound.asked listed'
  rw [caller] at found
  cases found.symm.trans found'
  obtain ⟨before, split⟩ := List.head?_eq_some_iff.mp asks
  obtain ⟨after, split'⟩ := List.head?_eq_some_iff.mp asks'
  rw [split, thread] at suffix
  rw [split'] at suffix'
  have once := (sound.callers found').1.asked_once handsOnce_task suffix suffix' (costs listed) (costs listed')
  have history : one.history = two.history := by rw [split, split', once]
  have request : one.request = two.request := Event.issued.inj (List.cons.inj once).1
  cases one
  cases two
  simp_all

/-- The ledger lists each thread of a connection once. -/
theorem MiningPool.shares_nodup (sound : pool.Sound initial) :
    (pool.ledger.map fun entry => (entry.2.caller, entry.2.thread)).Nodup := by
  refine sound.calls.of_map.map_on ?_
  rintro ⟨first, one⟩ listed ⟨second, two⟩ listed' same
  obtain ⟨caller, thread⟩ := Prod.mk.inj same
  exact List.inj_on_of_nodup_map sound.calls listed listed'
    (MiningPool.call_unique sound listed listed' caller thread)

theorem RpcEvent.settles_of_paid {submission : Submission} {history : RpcHistory}
    (paid : PaidFor service submission history ∨ hushed history = true) :
    ∃ event ∈ history, RpcEvent.settles event = true := by
  rcases paid with paid | isHushed
  · obtain ⟨proof, _, _, signature, member⟩ := paid.minted
    exact ⟨_, member, rfl⟩
  · obtain ⟨event, member, silent⟩ := List.any_eq_true.mp isHushed
    refine ⟨event, member, ?_⟩
    rw [RpcEvent.settles, silent, Bool.or_true]

/-- Accepted proofs are never more than the mints and the silent failures of the service. -/
theorem MiningPool.count_acceptsProof_le (sound : pool.Sound initial) :
    pool.count ClientEvent.acceptsProof ≤ pool.service.trace.countP fun pair => RpcEvent.settles pair.2 := by
  apply sound.count_le
  · intro event accepts
    obtain ⟨submission, proofReply, rfl, _⟩ := ClientEvent.acceptsProof_eq accepts
    exact ⟨_, _, rfl⟩
  · intro request answer accepts
    obtain ⟨submission, proofReply, same, _⟩ := ClientEvent.acceptsProof_eq accepts
    cases same
    rfl
  · intro thread call result answer listed ended given accepts
    obtain ⟨caller, me, request, history⟩ := call
    obtain ⟨submission, proofReply, same, accepted⟩ := ClientEvent.acceptsProof_eq accepts
    cases same
    change result = .ok (some proofReply.reply) at given
    rw [accepted] at given
    obtain ⟨event, member, settles⟩ :=
      RpcEvent.settles_of_paid (MiningPool.backs_of_gives sound listed rfl ended given).paid
    exact ⟨event, mem_own.mp member, settles⟩

end Pool

/-- A thread of the service backs each accepted share. -/
theorem MiningPool.backs_of_accepts {pool : MiningPool sha256 isPublicKey service} (sound : pool.Sound initial)
    {index me : ℕ} {connection : System ClientState ClientAnswer Thrown Unit ClientTask}
    (found : pool.callers[index]? = some connection) (accepts : AcceptsShare connection.trace me) :
    ∃ thread call submission, pool.Backs thread call submission ∧ call.caller = index ∧ call.thread = me := by
  obtain ⟨submission, proofReply, history, answered, accepted⟩ := accepts.replied (sound.callers found).1
  obtain ⟨thread, backs⟩ := MiningPool.backs_of_answered sound found answered accepted
  exact ⟨thread, _, submission, backs, rfl, rfl⟩

/-- In every interleaving of any number of connections with the chain service and its polls, whatever the chain
answers, the service has minted and paid for each share that a connection accepts, unless a chain request for this
share has failed silently. No share is minted or paid twice. -/
theorem pool_pays_shares (sha256 : Bytes → Bytes) (isPublicKey : String → Bool) (service : RpcService)
    (initial : RpcState) {pool : MiningPool sha256 isPublicKey service} (reached : pool.Reachable initial) :
    PaysShares pool := by
  have sound := reached.sound
  obtain ⟨mints, transfers⟩ := mints_nodup sound.service
  exact ⟨fun found accepts => MiningPool.backs_of_accepts sound found accepts,
    MiningPool.count_acceptsProof_le sound, sound.threads, MiningPool.shares_nodup sound, mints, transfers⟩

section Session

def ClientEvent.answersProof : ClientEvent → Bool
  | .answered (.submitProof _) _ => true
  | _ => false

abbrev sessionRules : Semantics ClientState ClientAnswer Thrown Unit ClientTask :=
  clientSemantics id (stratumDecoder fun _ => true)

/-- One environment answers every call of the session. -/
abbrev sessionAnswers : (call : ClientCall) → ClientAnswer call := acceptingOutcomes.environment []

/-- The session has authorized its two workers. -/
def authorizedConnection : System ClientState ClientAnswer Thrown Unit ClientTask :=
  (miningSession.take 4).foldl (System.after sessionRules acceptingOutcomes.environment) ⟨{}, [], []⟩

/-- The submit of the session waits for the chain service. -/
@[irreducible] def handingConnection : System ClientState ClientAnswer Thrown Unit ClientTask :=
  ((List.replicate 4 4).map Move.resume).foldl (System.move sessionRules sessionAnswers)
    (((miningSession.drop 4).map Move.start).foldl (System.move sessionRules sessionAnswers) authorizedConnection)

/-- The chain service has answered, and the session has written its success line. -/
@[irreducible] def paidConnection : System ClientState ClientAnswer Thrown Unit ClientTask :=
  ((List.replicate 6 4).map Move.resume).foldl (System.move sessionRules sessionAnswers) handingConnection

theorem sessionAnswers_admitted (me : ℕ) (state : ClientState) (trace : ClientTrace) (call : ClientCall)
    (other : call.awaitsPromise = false) : sessionRules.admits me state trace call (sessionAnswers call) :=
  acceptingOutcomes.admitted me [] state trace call other

/-- The fifth thread of a connection goes on as often as the count says. -/
abbrev resumed (answers : (call : ClientCall) → ClientAnswer call) (count : ℕ)
    (connection : System ClientState ClientAnswer Thrown Unit ClientTask) :
    System ClientState ClientAnswer Thrown Unit ClientTask :=
  ((List.replicate count 4).map Move.resume).foldl (System.move sessionRules answers) connection

section Resumed

variable {answers : (call : ClientCall) → ClientAnswer call}
  {connection : System ClientState ClientAnswer Thrown Unit ClientTask}

theorem resumed_steps (admitted : ∀ me state trace call, call.awaitsPromise = false →
      sessionRules.admits me state trace call (answers call)) (count : ℕ)
    (asked : ∀ pair ∈ (resumed answers count connection).trace,
      pair.2.Asks fun call => call.awaitsPromise = false) :
    Relation.ReflTransGen (Step sessionRules) connection (resumed answers count connection) :=
  (Resumes.of_moves admitted _ connection asked).lift id fun _ _ => Resumes.step

/-- The one reply that the thread receives is the newest event after its handover. -/
theorem trace_of_resumed {submission : Submission}
    {next : ClientAnswer (.submitProof submission) → ClientProgram Unit}
    (waits : connection.threads[4]? = some (.waiting (.submitProof submission) next)) {count : ℕ}
    (once : (resumed answers (count + 1) connection).trace.countP
      (fun pair => ClientEvent.answersProof pair.2) = 1) : ∃ added,
    (resumed answers (count + 1) connection).trace =
      added ++ (4, .answered (.submitProof submission) (answers (.submitProof submission))) :: connection.trace ∧
    added.countP (fun pair => ClientEvent.answersProof pair.2) = 0 := by
  have moved : ((4, .answered (.submitProof submission) (answers (.submitProof submission))) ::
      connection.trace) <:+ (connection.move sessionRules answers (.resume 4)).trace := by
    simp only [System.move, waits]
    exact List.suffix_append _ _
  have grown : (connection.move sessionRules answers (.resume 4)).trace <:+
      (resumed answers (count + 1) connection).trace := by
    unfold resumed
    rw [List.replicate_succ, List.map_cons, List.foldl_cons]
    exact System.trace_suffix_moves _ _
  obtain ⟨added, split⟩ := moved.trans grown
  refine ⟨added, split.symm, ?_⟩
  rw [← split, List.countP_append, List.countP_cons_of_pos rfl] at once
  omega

end Resumed

theorem handingConnection_reachable : Reachable sessionRules {} handingConnection := by
  have enabled : ∀ task ∈ miningSession, ∀ (state : ClientState) (trace : ClientTrace),
      sessionRules.mayStart state trace task := by
    intro task member state trace
    fin_cases member <;> trivial
  have authorized : Reachable sessionRules {} authorizedConnection :=
    Reachable.afterAll acceptingOutcomes.admitted .refl
      (fun task member => enabled task (List.mem_of_mem_take member)) (by decide +kernel)
  have submits : ∀ task ∈ miningSession.drop 4, ∀ (state : ClientState) (trace : ClientTrace),
      sessionRules.mayStart state trace task := fun task member => enabled task (List.mem_of_mem_drop member)
  have started := (Starts.of_moves sessionAnswers_admitted submits authorizedConnection (by decide +kernel)).steps
  unfold handingConnection
  exact (Relation.ReflTransGen.trans authorized started).trans
    (resumed_steps sessionAnswers_admitted 4 (by decide +kernel))

/-- The submission that a thread has handed over. -/
def handedBy : Option (Thread ClientState ClientAnswer Thrown Unit) → Option Submission
  | some (Thread.waiting (.submitProof submission) _) => some submission
  | _ => none

theorem waits_of_handedBy {thread : Option (Thread ClientState ClientAnswer Thrown Unit)} {submission : Submission}
    (handed : handedBy thread = some submission) :
    ∃ next, thread = some (.waiting (.submitProof submission) next) := by
  unfold handedBy at handed
  split at handed
  · obtain rfl := Option.some.inj handed
    exact ⟨_, rfl⟩
  · cases handed

def handedSubmission : Submission := (handedBy handingConnection.threads[4]?).get (by decide +kernel)

theorem handingConnection_waits : ∃ next,
    handingConnection.threads[4]? = some (.waiting (.submitProof handedSubmission) next) :=
  waits_of_handedBy (Option.some_get _).symm

/-- The chain service that runs the submission, before its first step. -/
def restingService : System RpcState RpcAnswer Thrown (Option (Reply Bool)) RpcTask :=
  ⟨{ blockHash := some (List.replicate 32 1) }, [], []⟩

abbrev chainAnswers : (call : RpcCall) → RpcAnswer call :=
  ChainOutcomes.environment ⟨.ok (), .ok true, .ok "mint", .ok 0, .ok "resize", .ok "remint", .ok (),
    .ok "transfer"⟩ []

abbrev sessionService : RpcService := ⟨List.replicate 32 7, "devnet"⟩

def startedService : System RpcState RpcAnswer Thrown (Option (Reply Bool)) RpcTask :=
  restingService.move sessionService.replies chainAnswers (.start (.submitProof handedSubmission))

def paidServiceSystem : System RpcState RpcAnswer Thrown (Option (Reply Bool)) RpcTask :=
  ((List.replicate 9 0).map Move.resume).foldl (System.move sessionService.replies chainAnswers) startedService

theorem chainAnswers_admitted (me : ℕ) (state : RpcState) (trace : Trace RpcAnswer RpcTask) (call : RpcCall)
    (_ : True) : sessionService.replies.admits me state trace call (chainAnswers call) := trivial

/-- The service starts a submission. -/
theorem restingService_step (submission : Submission) : Step sessionService.replies restingService
    (restingService.move sessionService.replies chainAnswers (.start (.submitProof submission))) := by
  apply Step.start (.submitProof submission) trivial
  apply Program.segment_advance (chainAnswers_admitted _)
  rintro ⟨me, event⟩ _
  cases event <;> trivial

theorem service_steps (service : System RpcState RpcAnswer Thrown (Option (Reply Bool)) RpcTask) (count : ℕ) :
    Relation.ReflTransGen (Step sessionService.replies) service
      (((List.replicate count 0).map Move.resume).foldl (System.move sessionService.replies chainAnswers) service) := by
  refine (Resumes.of_moves chainAnswers_admitted _ service ?_).lift id fun _ _ => Resumes.step
  rintro ⟨me, event⟩ _
  cases event <;> trivial

/-- The reply of the first thread. -/
def repliedBy : Option (Thread RpcState RpcAnswer Thrown (Option (Reply Bool))) → Bool
  | some (Thread.ended (Except.ok (some (Reply.result accepted)))) => accepted
  | _ => false

theorem ended_of_repliedBy {thread : Option (Thread RpcState RpcAnswer Thrown (Option (Reply Bool)))}
    (replied : repliedBy thread = true) : thread = some (.ended (.ok (some (.result true)))) := by
  unfold repliedBy at replied
  split at replied
  · rw [replied]
  · cases replied

abbrev SessionPool := MiningPool id (fun _ => true) sessionService

/-- The call of the fifth thread of the session. -/
def sessionCall : Call ClientAnswer ClientTask :=
  ⟨0, 4, .submitProof handedSubmission, own 4 handingConnection.trace⟩

def paidPool : SessionPool := ⟨[paidConnection], paidServiceSystem, [(0, sessionCall)]⟩

theorem handedTask_eq_none {trace : ClientTrace}
    (quiet : trace.countP (fun pair => ClientEvent.answersProof pair.2) = 0) (me : ℕ) (request : ClientCall)
    (answer : ClientAnswer request) (member : (me, .answered request answer) ∈ trace) :
    handedTask request = none := by
  have other := List.countP_eq_zero.mp quiet _ member
  cases request with
  | submitProof submission => exact absurd rfl other
  | _ => rfl

/-- A connection hands its proof over, the service runs the submission to its end, and the connection goes on with
the reply. -/
theorem pool_of_reply {handing paid : System ClientState ClientAnswer Thrown Unit ClientTask}
    (reached : Reachable sessionRules {} handing)
    (unanswered : handing.trace.countP (fun pair => ClientEvent.answersProof pair.2) = 0) {submission : Submission}
    {next : ClientAnswer (.submitProof submission) → ClientProgram Unit}
    (waits : handing.threads[4]? = some (.waiting (.submitProof submission) next))
    {finished : System RpcState RpcAnswer Thrown (Option (Reply Bool)) RpcTask}
    (ran : Relation.ReflTransGen (Step sessionService.replies)
      (restingService.move sessionService.replies chainAnswers (.start (.submitProof submission))) finished)
    (replied : repliedBy finished.threads[0]? = true) {added : ClientTrace} {proofReply : ProofReply}
    (accepted : proofReply.reply = .result true)
    (grown : paid.trace = added ++ (4, .answered (.submitProof submission) (.ok proofReply)) :: handing.trace)
    (unserved : added.countP (fun pair => ClientEvent.answersProof pair.2) = 0)
    (steps : Relation.ReflTransGen (Step sessionRules) handing paid) :
    (⟨[paid], finished, [(0, ⟨0, 4, .submitProof submission, own 4 handing.trace⟩)]⟩ : SessionPool).Reachable
      restingService.state := by
  let call : Call ClientAnswer ClientTask := ⟨0, 4, .submitProof submission, own 4 handing.trace⟩
  have joined : (⟨[⟨{}, [], []⟩], restingService, []⟩ : SessionPool).Reachable restingService.state :=
    .single .join
  have first : (⟨[⟨{}, [], []⟩], restingService, []⟩ : SessionPool).callers[0]? = some ⟨{}, [], []⟩ := rfl
  have handed : (⟨[handing], restingService, []⟩ : SessionPool).Reachable restingService.state :=
    joined.caller_steps first reached (Hub.delivers_of_plain (handedTask_eq_none unanswered))
  have begun : (⟨[handing], _, [(0, call)]⟩ : SessionPool).Reachable restingService.state :=
    Relation.ReflTransGen.tail handed (.begin call rfl waits rfl rfl List.not_mem_nil (restingService_step submission)
      (System.started_move restingService (.submitProof submission)))
  have done : (⟨[handing], finished, [(0, call)]⟩ : SessionPool).Reachable restingService.state :=
    begun.service_steps ran
  -- The service has served the one call, and the connection receives its reply first.
  have served : (⟨[handing], finished, [(0, call)]⟩ : SessionPool).Served call (.ok proofReply) := by
    refine ⟨0, _, List.mem_cons_self, ended_of_repliedBy replied, ?_⟩
    change Except.ok (some (Reply.result true)) = Except.ok (some proofReply.reply)
    rw [accepted]
  have answered : (⟨[handing], finished, [(0, call)]⟩ : SessionPool).Delivers 0
      ⟨{}, (4, .answered (.submitProof submission) (.ok proofReply)) :: handing.trace, []⟩ :=
    (Hub.delivers_of_plain (handedTask_eq_none unanswered)).answered rfl served
  have waiting : (⟨[handing], finished, [(0, call)]⟩ : SessionPool).callers[0]? = some handing := rfl
  exact done.caller_steps waiting steps (answered.append grown (handedTask_eq_none unserved))

theorem paidPool_reachable : paidPool.Reachable restingService.state := by
  obtain ⟨next, waits⟩ := handingConnection_waits
  have paid : paidConnection = resumed sessionAnswers 6 handingConnection := by
    unfold paidConnection
    rfl
  have once : paidConnection.trace.countP (fun pair => ClientEvent.answersProof pair.2) = 1 := by decide +kernel
  have asked : ∀ pair ∈ paidConnection.trace, pair.2.Asks fun call => call.awaitsPromise = false := by
    decide +kernel
  rw [paid] at once asked
  obtain ⟨added, grown, unserved⟩ := trace_of_resumed waits once
  have reached := pool_of_reply handingConnection_reachable (by decide +kernel) waits (service_steps startedService 9)
    (by decide +kernel) rfl grown unserved (resumed_steps sessionAnswers_admitted 6 asked)
  rw [← paid] at reached
  exact reached

def ClientEvent.writesSuccess : ClientEvent → Bool
  | .issued (.writeSocket (.response _ (.bool true))) => true
  | _ => false

def ClientEvent.writesError : ClientEvent → Bool
  | .issued (.writeSocket (.error _ _ _ _)) => true
  | _ => false

/-- A thread that handles a submit and writes a success accepts its share when no thread writes an error. -/
theorem acceptsShare_of_writes {trace : ClientTrace} {me : ℕ}
    (starts : me ∈ threadsOf ClientEvent.startsSubmit trace) (writes : me ∈ threadsOf ClientEvent.writesSuccess trace)
    (quiet : threadsOf ClientEvent.writesError trace = []) : AcceptsShare trace me where
  submits := mem_threadsOf.mp starts
  written := by
    obtain ⟨event, member, success⟩ := mem_threadsOf.mp writes
    unfold ClientEvent.writesSuccess at success
    split at success
    · exact ⟨_, member⟩
    · cases success
  unrefused message member := by
    have listed : me ∈ threadsOf ClientEvent.writesError trace := mem_threadsOf.mpr ⟨_, member, rfl⟩
    rw [quiet] at listed
    cases listed

theorem paidConnection_accepts : AcceptsShare paidConnection.trace 4 :=
  acceptsShare_of_writes (by decide +kernel) (by decide +kernel) (by decide +kernel)

/-- The session's share is accepted and paid. -/
theorem pool_pays_shares_session : AcceptsShare paidConnection.trace 4 ∧ PaysShares paidPool :=
  ⟨paidConnection_accepts, pool_pays_shares id (fun _ => true) sessionService restingService.state paidPool_reachable⟩

end Session

end ComptoMiningPool
