import ComptoMiningPool.Client.Handover
import ComptoMiningPool.Client.Provenance
import ComptoMiningPool.Session.Agreement

/-
This file follows a share from the job that the pool writes to the proof that it hands over. It proves that the
script has mined every proof of its connection.
-/

namespace ComptoMiningPool

open JavaScript Async StratumClient

/-- The thread of the script has found the nonce of the proof. The chain service constructs the proof of this very
work when it holds the block hash of the work, and the pool has emitted a template for this hash. -/
structure MinedBy (service : RpcService) (history : JobsHistory) (trace : ScriptTrace) (me : ℕ)
    (submission : Submission) (work : MiningWork) (nonce : BitVec 32) : Prop where
  found : (me, .called (.mine work) (.ok nonce)) ∈ trace
  emitted : ∃ template ∈ history.templates, ∃ milliseconds,
    template.block = getBlockTemplate service.publicKey work.recentBlockHash milliseconds
  verified : Verifies service work.recentBlockHash submission (work.proof nonce service.target)

namespace StratumClient

/-- No request of the script goes out twice. -/
theorem sent_nodup {sha256 : Bytes → Bytes} {address : String} {trace : ScriptTrace}
    (accepted : Accepted (scriptMonitor sha256 address) trace) :
    (trace.filterMap fun pair => ScriptEvent.sends pair.2).Nodup := by
  induction trace with
  | nil => exact List.nodup_nil
  | cons pair trace ih =>
      obtain ⟨me, event⟩ := pair
      obtain ⟨newest, older⟩ := accepted_cons.mp accepted
      cases sent : ScriptEvent.sends event with
      | none =>
          have listed : ((me, event) :: trace).filterMap (fun pair => ScriptEvent.sends pair.2) =
              trace.filterMap fun pair => ScriptEvent.sends pair.2 := List.filterMap_cons_none sent
          rw [listed]
          exact ih older
      | some message =>
          have listed : ((me, event) :: trace).filterMap (fun pair => ScriptEvent.sends pair.2) =
              message :: trace.filterMap fun pair => ScriptEvent.sends pair.2 := List.filterMap_cons_some sent
          rw [listed]
          refine List.nodup_cons.mpr ⟨fun member => ?_, ih older⟩
          obtain ⟨fields, rfl, rfl⟩ := ScriptEvent.sends_eq sent
          obtain ⟨⟨other, before⟩, inside, same⟩ := List.mem_filterMap.mp member
          obtain ⟨fields', same, rfl⟩ := ScriptEvent.sends_eq same
          cases same
          -- The newest request has a greater id than each request before it.
          obtain ⟨_, id, numbered, smaller⟩ := newest
          obtain ⟨lesser, less, numbered'⟩ := smaller other fields inside
          exact absurd (numbered.unique numbered') (Nat.ne_of_gt less)

section Submits

variable {sha256 : Bytes → Bytes} {address : String} {trace : ScriptTrace} {me : ℕ}

/-- A submit carries the work that its thread has just mined. -/
structure Submits (sha256 : Bytes → Bytes) (trace : ScriptTrace) (me : ℕ) (fields : Fields) (session : Session)
    (params : MiningNotify) (extraNonce2 : String) (work : MiningWork) (nonce : BitVec 32) : Prop where
  mined : ∃ past, own me trace = .called (.mine work) (.ok nonce) :: past
  notified : (me, .started (.data (.notify params))) ∈ trace
  holds : HoldsSession session trace
  mines : Mines sha256 session params extraNonce2 work
  carries : ∃ id, fields = submitOf session params extraNonce2 nonce id

theorem Sends.of_submit {fields : Fields} (sends : Sends sha256 address trace me fields)
    (method : RequestMethod.ofValue (fields.lookup "method") = some .submit) :
    ∃ session params extraNonce2 work nonce, Submits sha256 trace me fields session params extraNonce2 work nonce := by
  cases sends with
  | subscribe id opened => cases (method_subscribeMessage id).symm.trans method
  | configure id holds subscribed => cases (method_configureMessage _ id).symm.trans method
  | authorize id configured => cases (method_authorizeMessage address id).symm.trans method
  | @submit session params extraNonce2 work nonce past id mined notified holds mines =>
      refine ⟨session, params, extraNonce2, work, nonce, ⟨past, mined⟩, ?_, holds, mines, id, rfl⟩
      rw [← mem_own, mined]
      exact List.mem_cons_of_mem _ notified

/-- The pool reads every field of a submit as the script has written it. -/
theorem fields_of_decoded {session : Session} {params : MiningNotify} {extraNonce2 : String} {nonce : BitVec 32}
    {id : ℕ} {message : MiningSubmitMessage}
    (decoded : MiningSubmitMessage.decode (submitOf session params extraNonce2 nonce id) = .ok (.valid message)) :
    message.jobId = params.jobId ∧ message.extraNonce2 = extraNonce2 ∧ message.ntime = params.timestamp ∧
      message.nonce = padStart 8 (hexText nonce.toNat) ∧ message.versionMask.text =
        int32Text (applyVersionRolling params.version.toLower session.versionRollingMask).1 := by
  obtain ⟨message', decoded', sameJob, sameExtraNonce2, sameTime, padded, masked⟩ :=
    decode_createSubmitMessage "worker1" params.jobId extraNonce2 params.timestamp
      (padStart 8 (hexText nonce.toNat))
      (int32Text (applyVersionRolling params.version.toLower session.versionRollingMask).1) id
  obtain rfl : message = message' := Validated.valid.inj (Except.ok.inj (decoded.symm.trans decoded'))
  exact ⟨sameJob, sameExtraNonce2, sameTime, padded, congrArg Value.text masked⟩

/-- A thread sends one submit. -/
theorem submit_unique (accepted : Accepted (scriptMonitor sha256 address) trace) {first second : Fields}
    (one : (me, .called (.send first) ()) ∈ trace) (two : (me, .called (.send second) ()) ∈ trace)
    (firstMethod : RequestMethod.ofValue (first.lookup "method") = some .submit)
    (secondMethod : RequestMethod.ofValue (second.lookup "method") = some .submit) : first = second := by
  have once : ∀ {fields other earlier}, (me, .called (.send fields) ()) :: earlier <:+ trace →
      RequestMethod.ofValue (fields.lookup "method") = some .submit → (me, .called (.send other) ()) ∉ earlier := by
    intro fields other earlier suffix method
    obtain ⟨_, _, _, work, nonce, submits⟩ := (accepted me _ earlier suffix).1.of_submit method
    obtain ⟨past, mined⟩ := submits.mined
    exact submit_once accepted suffix mined
  obtain ⟨earlier, suffix⟩ := exists_cons_suffix one
  obtain ⟨earlier', suffix'⟩ := exists_cons_suffix two
  rcases List.suffix_or_suffix_of_suffix suffix suffix' with within | within
  · rcases List.suffix_cons_iff.mp within with same | inside
    · cases same
      rfl
    · exact absurd (inside.subset List.mem_cons_self) (once suffix' secondMethod)
  · rcases List.suffix_cons_iff.mp within with same | inside
    · cases same
      rfl
    · exact absurd (inside.subset List.mem_cons_self) (once suffix firstMethod)

end Submits

section Work

/-- A job has a notify line only for a hash of whole words. -/
theorem words_of_response {job : MiningJob} {template : JobTemplate} {hash : Bytes} {line : Line}
    (current : template.block.currentblockhash = hash.toHex) (response : job.response template = .ok line) :
    4 ∣ hash.length := by
  rw [MiningJob.response, current, MiningJob.reverseHexString_toHex] at response
  obtain ⟨reversed, same, response⟩ := exists_ok_of_bind response
  obtain rfl := Except.ok.inj same
  obtain ⟨natural, swapped, _⟩ := exists_ok_of_bind response
  rw [MiningJob.swapEndianStrings, Bytes.ofHex_toHex, MiningJob.swapEndianWords] at swapped
  cases defined : swap32 hash.reverse with
  | none =>
      rw [defined] at swapped
      cases swapped
  | some words =>
      have whole : (swap32 hash.reverse).isSome := by
        rw [defined]
        rfl
      rwa [isSome_swap32_iff, List.length_reverse] at whole

/-- The pool and the script make the same work from a job of the pool. -/
theorem work_of_mines {sha256 : Bytes → Bytes} {job : MiningJob} {template : JobTemplate} {publicKey hash : Bytes}
    {milliseconds : ℕ} (built : template.block = getBlockTemplate publicKey hash milliseconds)
    (keySize : publicKey.length = 32) {params : MiningNotify} (response : job.response template = .ok (.notify params))
    {sessionId extraNonce2 : String} {work : MiningWork}
    (mines : Mines sha256 ⟨"1fffe000", 4, sessionId⟩ params extraNonce2 work) :
    ∃ bitsSet : BitVec 32, int32Text (applyVersionRolling params.version.toLower "1fffe000").1 = hexText bitsSet.toNat ∧
      work.pubkey = publicKey ∧ work.recentBlockHash = hash ∧
      work.extraData = doubleSHA256 sha256 (Bytes.ofHex (sessionId ++ extraNonce2)) ∧
      work.version = Number.or (.ofNat 0x20000000) (.ofNat bitsSet.toNat) ∧
      work.timestamp = parseHex params.timestamp := by
  have current : template.block.currentblockhash = hash.toHex := by
    rw [built]
    rfl
  obtain ⟨swapped, defined, response'⟩ := job.response_of_hash template current (words_of_response current response)
  cases response.symm.trans response'
  have mask : hexText (0x1fffe000#32).toNat = "1fffe000" := by decide +kernel
  have version : template.block.version = 0x20000000 := by
    rw [built]
    rfl
  have small : (0x20000000 : ℕ) ≤ 2 ^ 53 := by norm_num
  obtain ⟨bitsSet, _, low, rolled⟩ := applyVersionRolling_hexText small ⟨0x1fffe000, by decide⟩
  change applyVersionRolling (hexText 0x20000000) (hexText (0x1fffe000#32).toNat) = _ at rolled
  rw [mask] at rolled
  refine ⟨bitsSet, ?_, ?_, ?_, ?_, ?_, mines.timestamp⟩
  · rw [version, toLower_hexText, rolled]
    exact int32Text_of_lt low
  · obtain ⟨first, rest, branch, key⟩ := mines.pubkey
    have transactions : template.block.transactions = [publicKey.toHex] := by
      rw [built]
      rfl
    change template.block.transactions = first :: rest at branch
    rw [transactions] at branch
    obtain ⟨rfl, _⟩ := List.cons.inj branch
    rw [Bytes.ofHex_toHex] at key
    exact key keySize
  · exact Except.ok.inj (mines.recentBlockHash.symm.trans (swapWords_notified defined))
  · rw [mines.extraData]
    simp
  · rw [mines.version]
    change (applyVersionRolling (hexText template.block.version).toLower "1fffe000").2 = _
    rw [version, toLower_hexText, rolled]

end Work

end StratumClient

namespace SessionLink

variable {sha256 : Bytes → Bytes} {address : String} {isPublicKey : String → Bool}
  {link : SessionLink sha256 address isPublicKey}

/-- The thread of the connection handles the submit that the thread of the script has sent. -/
structure Carries (link : SessionLink sha256 address isPublicKey) (me other : ℕ) (fields : Fields) : Prop where
  sent : (me, .called (.send fields) ()) ∈ link.script.trace
  received : (other, .started (.line (some (.object fields)))) ∈ link.connection.trace
  method : RequestMethod.ofValue (fields.lookup "method") = some .submit

theorem carries_of_handles (reached : link.Reachable) {other : ℕ} {fields : Fields}
    (handles : Handles (own other link.connection.trace) .submit fields) : ∃ me, Carries link me other fields := by
  obtain ⟨request, value, started, named, same, rfl⟩ := handles
  obtain ⟨me, message, object, sent⟩ := sent_of_received reached (mem_own.mp started)
  cases object
  obtain rfl : message.lookup "method" = value := Except.ok.inj named
  exact ⟨me, sent, mem_own.mp started, same⟩

/-- Two threads of the connection never handle the submit of one thread of the script. -/
theorem Carries.unique (reached : link.Reachable) {me first second : ℕ} {fields fields' : Fields}
    (one : Carries link me first fields) (two : Carries link me second fields') : first = second := by
  have accepted := ((scriptContract_proved sha256 address).reachable (script_reached reached)).2
  obtain rfl := submit_unique accepted one.sent two.sent one.method two.method
  have distinct : ((scriptParty sha256 address).sent link.near).Nodup := sent_nodup accepted
  have same := reached.swap.eq_of_received distinct one.received two.received rfl rfl
  cases same
  rfl

/-- A job that has reached the script is a job of the service. -/
theorem job_of_notified (reached : link.Reachable) {publicKey : Bytes} {jobs : JobsService} {history : JobsHistory}
    (served : ServedInvariant publicKey link.connection.trace jobs history) {me : ℕ} {params : MiningNotify}
    (notified : (me, .started (.data (.notify params))) ∈ link.script.trace) :
    ∃ job template, (job, template) ∈ history.added ∧ job.response template = .ok (.notify params) := by
  obtain ⟨other, written⟩ := written_of_received reached notified
  obtain ⟨past, suffix, answers⟩ := Reachable.answersOwn (connection_reached reached) written
  cases answers with
  | @notified template job _ started added built =>
      have asked : (other, .called (.addJob template) job) ∈ link.connection.trace :=
        mem_own.mp (suffix.subset (List.mem_cons_of_mem _ added))
      exact ⟨job, template, served.backed _ asked, built⟩

/-- The chain service constructs the proof of the work that the submission repeats. -/
theorem verifies_of_same (service : RpcService) {submission : Submission} {work : MiningWork} {nonce : BitVec 32}
    (pubkey : work.pubkey = service.publicKey) (extraData : submission.extraData = work.extraData)
    (nonces : submission.nonce = .ofNat nonce.toNat) (version : submission.version = work.version)
    (timestamp : submission.timestamp = work.timestamp) :
    Verifies service work.recentBlockHash submission (work.proof nonce service.target) := by
  intro environment state current
  have constructed := submitProof_constructs service submission environment current
  rw [← pubkey, extraData, nonces, version, timestamp] at constructed
  exact constructed

/-- A proof that is made from a submit of the script was mined by the thread of this submit. -/
theorem minedBy_of_carries (reached : link.Reachable) {service : RpcService} {jobs : JobsService}
    {history : JobsHistory} (served : ServedInvariant service.publicKey link.connection.trace jobs history)
    (keySize : service.publicKey.length = 32) {me other : ℕ} {fields : Fields} (carries : Carries link me other fields)
    {submission : Submission} {message : MiningSubmitMessage} {job : MiningJob} {template : JobTemplate}
    (made : MadeFrom sha256 service.publicKey history link.connection.trace other submission message job template) :
    ∃ work nonce, MinedBy service history link.script.trace me submission work nonce := by
  have accepted := ((scriptContract_proved sha256 address).reachable (script_reached reached)).2
  obtain ⟨earlier, suffix⟩ := exists_cons_suffix carries.sent
  have grows : earlier <:+ link.script.trace := (List.suffix_cons _ _).trans suffix
  obtain ⟨session, params, extraNonce2, work, nonce, submits⟩ :=
    (accepted me _ earlier suffix).1.of_submit carries.method
  obtain ⟨sessionId, stored, rfl⟩ := session_of_notified reached grows submits.holds submits.notified
  -- The connection decodes the fields of this very submit.
  obtain ⟨fields', handles, decoded⟩ := made.handles
  obtain ⟨rfl, _⟩ := handles_only reached (List.Subset.refl _) (mem_own.mpr carries.received) handles
  obtain ⟨id, carried⟩ := submits.carries
  rw [carried] at decoded
  obtain ⟨sameJob, sameExtraNonce2, sameTime, padded, masked⟩ := fields_of_decoded decoded
  -- The job of the submit is the job of the notify line.
  obtain ⟨job', template', added, response⟩ := job_of_notified reached served (grows.subset submits.notified)
  have named : job.jobId = job'.jobId := by
    rw [made.named, sameJob, MiningJob.jobId_of_response response]
  cases served.job_unique made.added added named
  obtain ⟨hash, milliseconds, built⟩ := made.block
  obtain ⟨bitsSet, text, pubkey, recentBlockHash, extraData, version, timestamp⟩ :=
    work_of_mines built keySize response submits.mines
  obtain ⟨past, mined⟩ := submits.mined
  refine ⟨work, nonce, ?_, ⟨template, ?_, milliseconds, ?_⟩, verifies_of_same service pubkey ?_ ?_ ?_ ?_⟩
  · apply grows.subset
    rw [← mem_own, mined]
    exact List.mem_cons_self
  · exact (served.run.invariant.jobsTemplate _ added).1
  · rw [built, recentBlockHash]
  · obtain ⟨drawn, only, same⟩ := made.extraData
    have kept := ((submissionContract_proved sha256 (stratumDecoder isPublicKey)).reachable
      (connection_reached reached)).1.core.session
    rw [only, stored] at kept
    obtain ⟨rfl, _⟩ := List.cons.inj kept
    rw [same, extraData, sameExtraNonce2]
    rfl
  · rw [made.nonce, padded]
    exact parseHex_padStart 8 (nonce.isLt.le.trans (by norm_num))
  · obtain ⟨configuration, validated, rolled⟩ := made.version
    rw [if_pos (rolls_of_validated reached validated).1] at rolled
    have bits : message.versionMask.text = hexText bitsSet.toNat := masked.trans text
    have small : bitsSet.toNat ≤ 2 ^ 53 := bitsSet.isLt.le.trans (by norm_num)
    rw [rolled.2, version, bits, parseHex_hexText small]
  · rw [made.timestamp, timestamp, sameTime]

end SessionLink

/-- Each proof of the connection was mined by a thread of the script, and no thread has mined two of them. -/
def ProofsMined (service : RpcService) (history : JobsHistory) {sha256 : Bytes → Bytes} {address : String}
    {isPublicKey : String → Bool} (link : SessionLink sha256 address isPublicKey) : Prop :=
  (threadsOf ClientEvent.passesProof link.connection.trace).Nodup ∧ ∃ miner : ℕ → ℕ,
    Set.InjOn miner {other | other ∈ threadsOf ClientEvent.passesProof link.connection.trace} ∧
      ∀ other submission, (other, .issued (.submitProof submission)) ∈ link.connection.trace →
        ∃ work nonce, MinedBy service history link.script.trace (miner other) submission work nonce

theorem exists_submission_of_mem {other : ℕ} {trace : ClientTrace}
    (hands : other ∈ threadsOf ClientEvent.passesProof trace) :
    ∃ submission, (other, .issued (.submitProof submission)) ∈ trace := by
  obtain ⟨event, inside, passes⟩ := mem_threadsOf.mp hands
  unfold ClientEvent.passesProof at passes
  split at passes
  · exact ⟨_, inside⟩
  · cases passes

/-- Each thread that hands a proof over handles the submit of a thread that has mined this proof. -/
theorem SessionLink.proofsMined {sha256 : Bytes → Bytes} {address : String} {isPublicKey : String → Bool}
    {link : SessionLink sha256 address isPublicKey} (reached : link.Reachable) {service : RpcService}
    {jobs : JobsService} {history : JobsHistory}
    (kept : ServedInvariant service.publicKey link.connection.trace jobs history)
    (keySize : service.publicKey.length = 32) : ProofsMined service history link := by
  have connected := SessionLink.connection_reached reached
  -- Each thread that hands a proof over handles a submit of the script.
  have sender : ∀ other, ∃ me, other ∈ threadsOf ClientEvent.passesProof link.connection.trace →
      ∃ fields, SessionLink.Carries link me other fields := by
    intro other
    by_cases hands : other ∈ threadsOf ClientEvent.passesProof link.connection.trace
    · obtain ⟨submission, issued⟩ := exists_submission_of_mem hands
      obtain ⟨message, job, template, made⟩ := kept.madeFrom connected issued
      obtain ⟨fields, handles, _⟩ := made.handles
      obtain ⟨me, carries⟩ := SessionLink.carries_of_handles reached handles
      exact ⟨me, fun _ => ⟨fields, carries⟩⟩
    · exact ⟨0, fun hands' => absurd hands' hands⟩
  choose miner carried using sender
  refine ⟨Reachable.passesProof_nodup connected, miner, ?_, ?_⟩
  · intro first one second two same
    obtain ⟨fields, carries⟩ := carried first one
    obtain ⟨fields', carries'⟩ := carried second two
    rw [← same] at carries'
    exact carries.unique reached carries'
  · intro other submission issued
    obtain ⟨fields, carries⟩ := carried other (mem_threadsOf.mpr ⟨_, issued, rfl⟩)
    obtain ⟨message, job, template, made⟩ := kept.madeFrom connected issued
    exact SessionLink.minedBy_of_carries reached kept keySize carries made

end ComptoMiningPool
