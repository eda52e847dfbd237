import ComptoMiningPool.Client.Grammar
import ComptoMiningPool.Pool.Ledger
import ComptoMiningPool.Session.Shares

/-
This file follows a share from the script that mines it to the chain service that pays for it. The connection of
the script is one of the connections of the pool.
-/

namespace ComptoMiningPool

open JavaScript Async StratumClient

/-- The service has minted the mined work under the block hash that it held, and a due payout has reached the
recipient. -/
structure PaysWork (service : RpcService) (work : MiningWork) (nonce : BitVec 32) (submission : Submission)
    (history : RpcHistory) : Prop where
  minted : ∃ hash, Minted { work.proof nonce service.target with recentBlockHash := hash } history
  transferred : payoutDue submission.fee = true → Transferred submission.recipient submission.fee history

section Proofs

variable {service : RpcService} {submission : Submission}

/-- A submission determines its proof up to the block hash. -/
theorem RpcService.Builds.same {first second : ComptokenProof} (one : service.Builds submission first)
    (two : service.Builds submission second) : first = { second with recentBlockHash := first.recentBlockHash } := by
  cases first
  cases second
  simp only [ComptokenProof.mk.injEq]
  refine ⟨?_, trivial, ?_, ?_, ?_, ?_, ?_⟩
  · exact one.pubkey.trans two.pubkey.symm
  · exact one.extraData.trans two.extraData.symm
  · exact one.nonce.trans two.nonce.symm
  · exact one.version.trans two.version.symm
  · exact one.timestamp.trans two.timestamp.symm
  · exact one.target.trans two.target.symm

/-- The proof that the service constructs carries the values of the submission. -/
theorem Verifies.builds {hash : Bytes} {proof : ComptokenProof} (verified : Verifies service hash submission proof) :
    service.Builds submission proof := by
  have current : ({ blockHash := some hash } : RpcState).blockHash = some hash := rfl
  obtain ⟨answer, constructed⟩ := verified (fun _ => chainAnswers) _ current
  obtain ⟨answer', constructed'⟩ := submitProof_constructs service submission (fun _ => chainAnswers) current
  -- Both proofs are the oldest event of the one run.
  have same := (List.suffix_of_suffix_length_le constructed constructed' le_rfl).eq_of_length rfl
  cases same
  exact ⟨rfl, rfl, rfl, rfl, rfl, rfl⟩

/-- What a thread of the service pays for is the work that the submission repeats. -/
theorem PaidFor.paysWork {work : MiningWork} {nonce : BitVec 32} {history : RpcHistory}
    (paid : PaidFor service submission history)
    (verified : Verifies service work.recentBlockHash submission (work.proof nonce service.target)) :
    PaysWork service work nonce submission history := by
  refine ⟨?_, paid.transferred⟩
  obtain ⟨proof, builds, _, minted⟩ := paid.minted
  refine ⟨proof.recentBlockHash, ?_⟩
  rw [← builds.same verified.builds]
  exact minted

end Proofs

namespace SessionLink

variable {sha256 : Bytes → Bytes} {address : String} {isPublicKey : String → Bool}
  {link : SessionLink sha256 address isPublicKey}

/-- The pool decodes the own address of the script. -/
theorem address_of_decoded (dotless : '.' ∉ address.toList) {id : ℕ} {message : AuthorizationMessage}
    (decoded : AuthorizationMessage.decode isPublicKey (authorizeMessage address id) = .ok (.valid message)) :
    message.address = address := by
  have pieces : splitText '.' (address ++ ".worker1") = [address, "worker1"] := by
    have dotted := splitText_dot dotless (show '.' ∉ "worker1".toList by decide)
    rwa [String.append_assoc] at dotted
  change Except.ok (validated _ _ (AuthorizationMessage.mk _ ((splitText '.' (address ++ ".worker1")).headD "") _ _)) =
    Except.ok _ at decoded
  obtain ⟨_, rfl⟩ := validated_valid_iff.mp (Except.ok.inj decoded)
  change (splitText '.' (address ++ ".worker1")).headD "" = address
  rw [pieces]
  rfl

/-- Each proof of the connection pays the script. -/
theorem recipient_of_issued (reached : link.Reachable) (dotless : '.' ∉ address.toList) {other : ℕ}
    {submission : Submission} (issued : (other, .issued (.submitProof submission)) ∈ link.connection.trace) :
    submission.recipient = address := by
  have connected := connection_reached reached
  obtain ⟨earlier, suffix⟩ := exists_cons_suffix issued
  obtain ⟨me, fields, authorization, validated, paid⟩ := Reachable.authorized_of_issued connected suffix
  have member := suffix.subset (List.mem_cons_of_mem _ validated)
  obtain ⟨history, inside, handles⟩ := Reachable.answersOwn connected member
  have within : history ⊆ own me link.connection.trace :=
    List.Subset.trans (List.subset_cons_self _ _) inside.subset
  obtain ⟨method, thread, past, sent, sends⟩ := exists_sent reached within handles
  obtain ⟨_, _, _, admitted⟩ := connected.admitted.of_mem member
  change Except.ok (Validated.valid authorization) = AuthorizationMessage.decode isPublicKey fields at admitted
  cases sends with
  | subscribe id opened => cases (method_subscribeMessage id).symm.trans method
  | configure id holds subscribed => cases (method_configureMessage _ id).symm.trans method
  | submit id mined notified holds mines => cases (method_submitOf id _ _ _ _).symm.trans method
  | authorize id configured =>
      rw [paid]
      exact address_of_decoded dotless admitted.symm

/-- A thread of the service has a thread of the connection, and it works for no other one. -/
theorem issued_of_backs {service : RpcService} {initial : RpcState} {pool : MiningPool sha256 isPublicKey service}
    (sound : pool.Sound initial) {index : ℕ} (found : pool.callers[index]? = some link.connection) {thread : ℕ}
    {call : Call ClientAnswer ClientTask} {submission : Submission} (backs : pool.Backs thread call submission)
    (caller : call.caller = index) : (call.thread, .issued (.submitProof submission)) ∈ link.connection.trace := by
  obtain ⟨newest, connection, found', suffix⟩ := sound.asked backs.listed
  rw [caller, found] at found'
  obtain rfl := Option.some.inj found'
  rw [backs.asks] at newest
  exact mem_own.mp (suffix.subset (List.mem_of_mem_head? newest))

end SessionLink

/-- The miner is the thread of the script that has mined the share, and the worker is the thread of the service that
has paid for it, unless one of its chain requests has failed silently. The payout goes to the script. -/
structure SettlesShare {sha256 : Bytes → Bytes} {address : String} {isPublicKey : String → Bool} {service : RpcService}
    (pool : MiningPool sha256 isPublicKey service) (history : JobsHistory)
    (link : SessionLink sha256 address isPublicKey) (miner worker : ℕ) (submission : Submission) (work : MiningWork)
    (nonce : BitVec 32) : Prop where
  mined : MinedBy service history link.script.trace miner submission work nonce
  recipient : '.' ∉ address.toList → submission.recipient = address
  paid : PaysWork service work nonce submission (own worker pool.service.trace) ∨
    hushed (own worker pool.service.trace) = true

/-- A share is settled by the thread of the service that has worked for its thread of the connection. -/
theorem SettlesShare.of_backs {sha256 : Bytes → Bytes} {address : String} {isPublicKey : String → Bool}
    {service : RpcService} {pool : MiningPool sha256 isPublicKey service} {history : JobsHistory}
    {link : SessionLink sha256 address isPublicKey} {miner worker : ℕ} {call : Call ClientAnswer ClientTask}
    {submission : Submission} {work : MiningWork} {nonce : BitVec 32} (linked : link.Reachable)
    (issued : (call.thread, .issued (.submitProof submission)) ∈ link.connection.trace)
    (backs : pool.Backs worker call submission)
    (minedBy : MinedBy service history link.script.trace miner submission work nonce) :
    SettlesShare pool history link miner worker submission work nonce := by
  refine ⟨minedBy, fun dotless => SessionLink.recipient_of_issued linked dotless issued, ?_⟩
  rcases backs.paid with paid | isHushed
  · exact .inl (paid.paysWork minedBy.verified)
  · exact .inr isHushed

/-- Each share that the connection accepts is settled, and no two shares have one miner or one worker. -/
def SettlesShares {sha256 : Bytes → Bytes} {address : String} {isPublicKey : String → Bool} {service : RpcService}
    (pool : MiningPool sha256 isPublicKey service) (history : JobsHistory)
    (link : SessionLink sha256 address isPublicKey) : Prop :=
  ∃ miner worker : ℕ → ℕ, Set.InjOn miner {me | AcceptsShare link.connection.trace me} ∧
    Set.InjOn worker {me | AcceptsShare link.connection.trace me} ∧
      ∀ me, AcceptsShare link.connection.trace me → ∃ submission work nonce,
        SettlesShare pool history link (miner me) (worker me) submission work nonce

section Session

/-- The script waits for the response to its submit, which has not reached the pool. -/
def submittedLink : AcceptingLink := (acceptedTurns.take 13).foldl AcceptingLink.turn (Link.initial _ _)

def submitLine : ClientTask :=
  .line (some (.object (createSubmitMessage "worker1" "2" "04030201" "0" "00000007" "6000" 4)))

/-- The submit of the script waits for the chain service. -/
@[irreducible] def minedConnection : System ClientState ClientAnswer Thrown Unit ClientTask :=
  resumed (servedPool []) 4 (submittedLink.connection.move sessionRules (servedPool []) (.start submitLine))

/-- The chain service has answered, and the pool has written its success line. -/
@[irreducible] def settledConnection : System ClientState ClientAnswer Thrown Unit ClientTask :=
  resumed (servedPool []) 6 minedConnection

def settledLink : AcceptingLink := { submittedLink with far := settledConnection }

def minedSubmission : Submission := (handedBy minedConnection.threads[4]?).get (by decide +kernel)

def settledPool : SessionPool :=
  ⟨[settledConnection], ((List.replicate 9 0).map Move.resume).foldl (System.move sessionService.replies chainAnswers)
    (restingService.move sessionService.replies chainAnswers (.start (.submitProof minedSubmission))),
    [(0, ⟨0, 4, .submitProof minedSubmission, own 4 minedConnection.trace⟩)]⟩

theorem submittedLink_reachable : submittedLink.Reachable :=
  AcceptingLink.reachable_turns .refl (by decide +kernel)

theorem servedPool_answers (me : ℕ) (state : ClientState) (trace : ClientTrace) (call : ClientCall)
    (other : call.awaitsPromise = false) : sessionRules.admits me state trace call (servedPool [] call) :=
  servedPool_admitted me [] state trace call other

theorem minedConnection_steps :
    Relation.ReflTransGen (Step sessionRules) submittedLink.connection minedConnection := by
  unfold minedConnection
  refine Relation.ReflTransGen.trans ?_ (resumed_steps servedPool_answers 4 (by decide +kernel))
  have lawful : submittedLink.connection.Lawful sessionRules (servedPool []) (.start submitLine) := trivial
  exact System.steps_move servedPool_answers lawful (by decide +kernel)

theorem settledConnection_steps :
    Relation.ReflTransGen (Step sessionRules) minedConnection settledConnection := by
  unfold settledConnection
  exact resumed_steps servedPool_answers 6 (by decide +kernel)

theorem settledLink_reachable : settledLink.Reachable :=
  submittedLink_reachable.far_steps (minedConnection_steps.trans settledConnection_steps) (by decide +kernel)

theorem settledPool_reachable : settledPool.Reachable restingService.state := by
  obtain ⟨next, waits⟩ : ∃ next, minedConnection.threads[4]? = some (.waiting (.submitProof minedSubmission) next) :=
    waits_of_handedBy (Option.some_get _).symm
  have settled : settledConnection = resumed (servedPool []) 6 minedConnection := by
    unfold settledConnection
    rfl
  have once : settledConnection.trace.countP (fun pair => ClientEvent.answersProof pair.2) = 1 := by decide +kernel
  rw [settled] at once
  obtain ⟨added, grown, unserved⟩ := trace_of_resumed waits once
  rw [← settled] at grown
  have reached : Reachable sessionRules {} minedConnection :=
    (SessionLink.connection_reached submittedLink_reachable).trans minedConnection_steps
  exact pool_of_reply reached (by decide +kernel) waits (service_steps _ 9) (by decide +kernel) rfl grown unserved
    settledConnection_steps

theorem settledLink_served :
    ∃ jobs history, Served (List.replicate 32 7) settledLink.connection.trace jobs history := by
  have played : (openedJobs.1.replayAll [.emitted openedJobs.2] settledLink.connection.trace).isSome = true := by
    decide +kernel
  obtain ⟨⟨jobs, history⟩, replayed⟩ := Option.isSome_iff_exists.mp played
  exact ⟨jobs, history, openedJobs_served.replayAll replayed⟩

end Session

end ComptoMiningPool
