import ComptoMiningPool.Async.Sequential
import ComptoMiningPool.Client.Submission
import ComptoMiningPool.Miner.StratumClient
import ComptoMiningPool.Rpc.Payout

/-
This file proves that the pool verifies the values that the client has mined with.
-/

namespace ComptoMiningPool

open JavaScript Async StratumClient

/-- The searches for a nonce that the script has run, newest first. -/
def minings (history : MinerHistory) : List (MiningWork × Except Thrown (BitVec 32)) :=
  history.filterMap fun
    | .called (.mine work) answer => some (work, answer)
    | _ => none

/-- A found nonce turns the work into a proof. -/
def StratumClient.MiningWork.proof (work : MiningWork) (nonce : BitVec 32) (target : ProofTarget) :
    ComptokenProof where
  pubkey := work.pubkey
  recentBlockHash := work.recentBlockHash
  extraData := work.extraData
  nonce := .ofNat nonce.toNat
  version := work.version
  timestamp := work.timestamp
  target := target

/-- The script and the connection hold the same session: its id, its mask, and the size that the pool
announces. -/
structure Agrees (miner : MinerState) (client : ClientState) : Prop where
  session : client.extraNonceAndSessionId = some miner.sessionId
  size : miner.extraNonce2Size = 4
  rolling : ∃ configuration, client.clientConfiguration = some configuration ∧
    configuration.versionRolling = true ∧
    miner.versionRollingMask = hexText configuration.versionRollingMask.word.toNat

/-- The pool answers the requests of the script from the fields of its connection. -/
structure Serves (environment : MinerHistory → (call : MinerCall) → MinerAnswer call)
    (client : ClientState) : Prop where
  session : client.extraNonceAndSessionId.isSome
  subscribed : ∃ subscription : SubscriptionMessage, ∀ history id,
    environment history (.request (createSubscribeMessage "ComptoMiner/0.1" .null id)) =
      subscription.response client.extraNonceAndSessionId
  configured : ∃ configuration, client.clientConfiguration = some configuration ∧
    configuration.versionRolling = true ∧ ∀ history extensions options id,
      environment history (.request (createConfigureMessage extensions options id)) =
        configuration.response

/-- A script that has connected holds the session of its pool. -/
theorem agrees_of_connect {environment : MinerHistory → (call : MinerCall) → MinerAnswer call}
    {client : ClientState} (serves : Serves environment client) (address : String) :
    Agrees ((connect address).run environment {} []).state client := by
  obtain ⟨sessionId, session⟩ := Option.isSome_iff_exists.mp serves.session
  obtain ⟨subscription, subscribed⟩ := serves.subscribed
  obtain ⟨configuration, configured, rolling, negotiated⟩ := serves.configured
  have parsed : parseSubscribeResponse (subscription.response client.extraNonceAndSessionId) =
      .ok (sessionId, 4) := by
    rw [session]
    rfl
  have result : parseConfigureResponse configuration.response = .ok (.object
      [("version-rolling", .bool true),
        ("version-rolling.mask", .string (hexText configuration.versionRollingMask.word.toNat))]) := by
    rw [ConfigurationMessage.response, if_pos rolling]
    rfl
  suffices kept : ∃ nextId, ((connect address).run environment {} []).state =
      ⟨hexText configuration.versionRollingMask.word.toNat, 4, sessionId, nextId⟩ by
    obtain ⟨nextId, reached⟩ := kept
    rw [reached]
    exact ⟨session, rfl, configuration, configured, rolling, rfl⟩
  unfold connect request
  simp only [Program.bind_eq, Program.load, Program.modify, Program.awaiting, Program.bind, Program.run,
    Program.run_bind, Program.run_ofExcept, subscribed, parsed, negotiated, result]
  rw [run_adoptMask_of_text environment _ _ rfl]
  dsimp only
  generalize parseAuthorizeResponse _ = authorized
  cases authorized with
  | error thrown => exact ⟨_, rfl⟩
  | ok authorized =>
      cases authorized
      · exact ⟨_, rfl⟩
      · exact ⟨_, rfl⟩

/-- The key constructor of the library takes every key of 32 bytes. -/
def TakesKeys (environment : MinerHistory → (call : MinerCall) → MinerAnswer call) : Prop :=
  ∀ history (key : Bytes), key.length = 32 → environment history (.publicKey key) = .ok key

/-- The pool and the script undo each other's order of the block hash. -/
theorem swapWords_notified {hash swapped : Bytes} (defined : swap32 hash.reverse = some swapped) :
    swapWords (Bytes.ofHex swapped.toHex.toLower).reverse = .ok hash := by
  have back : swap32 swapped.reverse = some hash := by
    have undone := swap32_reverse (swap32_swap32 defined)
    rwa [List.reverse_reverse] at undone
  rw [Bytes.toLower_toHex, Bytes.ofHex_toHex, swapWords, back]

/-- The script mines a notify line once, and a found nonce gives its submit. -/
theorem run_handleLine (sha256 : Bytes → Bytes)
    {environment : MinerHistory → (call : MinerCall) → MinerAnswer call} (takes : TakesKeys environment)
    {miner : MinerState} {mask : RollingMask} (size : miner.extraNonce2Size = 4)
    (masked : miner.versionRollingMask = hexText mask.word.toNat) {params : MiningNotify}
    {hash swapped key : Bytes} {version : ℕ} (defined : swap32 hash.reverse = some swapped)
    (prevHash : params.prevHash = swapped.toHex) (branch : params.merkleBranch = [key.toHex])
    (keySize : key.length = 32) (notified : params.version = hexText version)
    (small : version ≤ 2 ^ 53) :
    ∃ (bitsSet : BitVec 32) (extraNonce2 : String) (work : MiningWork) (asked : MinerHistory),
      bitsSet &&& ~~~mask.word = 0 ∧ bitsSet.toNat < 2 ^ 31 ∧
      work = {
        pubkey := key
        recentBlockHash := hash
        extraData := StratumClient.doubleSHA256 sha256 (Bytes.ofHex
          (params.coinbasePart1 ++ miner.sessionId ++ extraNonce2 ++ params.coinbasePart2))
        version := Number.or (.ofNat version) (.ofNat bitsSet.toNat)
        timestamp := parseHex params.timestamp
        startNonce := 0 } ∧
      minings ((handleLine sha256 (.notify params)).run environment miner []).history =
        [(work, environment asked (.mine work))] ∧
      ∀ nonce, environment asked (.mine work) = .ok nonce →
        ((handleLine sha256 (.notify params)).run environment miner []).result =
          .ok (createSubmitMessage "worker1" params.jobId extraNonce2 params.timestamp
            (padStart 8 (hexText nonce.toNat)) (hexText bitsSet.toNat) miner.nextId) := by
  obtain ⟨bitsSet, inside, low, rolled⟩ := applyVersionRolling_hexText small mask
  rw [← masked, ← toLower_hexText version, ← notified] at rolled
  unfold handleLine handleNotify minerKey
  simp only [Program.bind_eq, Program.load, Program.modify, Program.bind, Program.run, parseNotify,
    Program.ofExcept, Program.perform, prevHash, swapWords_notified defined, size,
    hexLEFromNumber_four, branch]
  rw [rolled, Bytes.ofHex_toHex, takes _ key keySize]
  simp only [Program.bind, Program.run, int32Text_of_lt low]
  generalize (littleEndian 4 (BitVec.toNat (environment [] MinerCall.random))).toHex = extraNonce2
  generalize answered : environment _ (MinerCall.mine _) = answer
  refine ⟨bitsSet, extraNonce2, _, [.called (.publicKey key) (.ok key),
    .called .random (environment [] .random)], inside, low, rfl, ?_, ?_⟩
  · rw [answered]
    cases answer <;> rfl
  · intro nonce found
    rw [answered.symm.trans found]
    rfl

/-- The pool reads every field of a submit as the script has written it. -/
theorem decode_createSubmitMessage (userId jobId extraNonce2 nTime nonce bitsSet : String) (id : ℕ) :
    ∃ message, MiningSubmitMessage.decode
        (createSubmitMessage userId jobId extraNonce2 nTime nonce bitsSet id) = .ok (.valid message) ∧
      message.jobId = jobId ∧ message.extraNonce2 = extraNonce2 ∧ message.ntime = nTime ∧
      message.nonce = nonce ∧ message.versionMask = some (.string bitsSet) :=
  ⟨_, rfl, rfl, rfl, rfl, rfl, rfl⟩

theorem method_createSubmitMessage (userId jobId extraNonce2 nTime nonce bitsSet : String) (id : ℕ) :
    RequestMethod.ofValue
      ((createSubmitMessage userId jobId extraNonce2 nTime nonce bitsSet id).lookup "method") =
        some .submit := rfl

/-- The shares that the chain service receives while the pool handles one line. -/
def handedOn (sha256 : Bytes → Bytes) (outcomes : SubmitOutcomes) (client : ClientState) (fields : Fields) :
    List Submission :=
  proofCalls ((handleMessage sha256 (some (.object fields))).run outcomes.environment client []).history

/-- Bits of the negotiated mask pass the mask test of the pool. -/
theorem not_maskExceeded {configuration : ConfigurationMessage} {submission : MiningSubmitMessage}
    {bitsSet : BitVec 32} (inside : bitsSet &&& ~~~configuration.versionRollingMask.word = 0)
    (sent : submission.versionMask = some (.string (hexText bitsSet.toNat))) :
    ¬ MaskExceeded configuration submission := by
  have word : (parseHex submission.versionMask.text).toInt32 = bitsSet := by
    rw [sent]
    show (parseHex (hexText bitsSet.toNat)).toInt32 = bitsSet
    rw [parseHex_hexText (bitsSet.isLt.le.trans (by norm_num)), Number.toInt32_ofNat,
      BitVec.ofNat_toNat, BitVec.setWidth_eq]
  rw [MaskExceeded, word, not_not]
  exact inside

/-- The pool hands a share on exactly when the connection is ready and the fee is valid. -/
theorem handedOn_of_rolled (sha256 : Bytes → Bytes) {outcomes : SubmitOutcomes} {client : ClientState}
    {configuration : ConfigurationMessage} {fields : Fields} {submission : MiningSubmitMessage}
    {bitsSet : BitVec 32} {template : JobTemplate} (opened : client.Initialized)
    (submit : RequestMethod.ofValue (fields.lookup "method") = some .submit)
    (decoded : MiningSubmitMessage.decode fields = .ok (.valid submission))
    (configured : client.clientConfiguration = some configuration)
    (rolling : configuration.versionRolling = true)
    (inside : bitsSet &&& ~~~configuration.versionRollingMask.word = 0)
    (sent : submission.versionMask = some (.string (hexText bitsSet.toNat)))
    (stored : ∀ other, outcomes.jobTemplate = some (.own other) → other = template) :
    (outcomes.ShareReady client → handedOn sha256 outcomes client fields =
        (outcomes.shareOf sha256 client submission template).toList) ∧
      (¬ outcomes.ShareReady client → handedOn sha256 outcomes client fields = []) := by
  have gate : client.clientConfiguration.map ConfigurationMessage.versionRolling = some true := by
    rw [configured, Option.map_some, rolling]
  have contained : ¬ outcomes.RefusesMask client fields := by
    intro refused
    obtain ⟨submission', decoded', _, _, configuration', configured', exceeded⟩ := refused
    obtain rfl := Validated.valid.inj (Except.ok.inj (decoded.symm.trans decoded'))
    obtain rfl := Option.some.inj (configured.symm.trans configured')
    exact not_maskExceeded inside sent exceeded
  obtain ⟨result, after, final, ran, same, _, forwards⟩ :=
    run_handleSubmitMessage_of_not_refused outcomes sha256 opened contained
  have history : handedOn sha256 outcomes client fields = proofCalls final := by
    rw [handedOn, run_handleMessage_of_submit outcomes sha256 opened submit ran same,
      proofCalls_clientTurn]
  rw [history]
  cases forwards submission decoded gate with
  | held unready calls => exact ⟨fun ready => absurd ready unready, fun _ => calls⟩
  | passed template' ready stored' calls =>
      obtain rfl := stored template' stored'
      refine ⟨fun _ => ?_, fun unready => absurd ready unready⟩
      rw [calls, proofCalls_nil, List.append_nil]

/-- An authorized connection passes its share on if and only if the fee is valid. -/
theorem isSome_shareOf_iff (sha256 : Bytes → Bytes) {outcomes : SubmitOutcomes} {client : ClientState}
    (submission : MiningSubmitMessage) (template : JobTemplate)
    (authorized : client.clientAuthorization.isSome) :
    (outcomes.shareOf sha256 client submission template).isSome ↔ validFee outcomes.fee = true := by
  unfold SubmitOutcomes.shareOf SubmitOutcomes.proofOf
  split
  · next fee => simp [fee, authorized]
  · next fee => simp [fee]

/-- The chain service first constructs the proof of a submission over its current block hash. -/
theorem submitProof_constructs (service : RpcService) (submission : Submission)
    (environment : RpcHistory → (call : RpcCall) → RpcAnswer call) {state : RpcState} {hash : Bytes}
    (current : state.blockHash = some hash) :
    ∃ answer, [Event.called (.constructProof {
        pubkey := service.publicKey
        recentBlockHash := hash
        extraData := submission.extraData
        nonce := submission.nonce
        version := submission.version
        timestamp := submission.timestamp
        target := service.target }) answer] <:+
      ((service.submitProof submission).run environment state []).history := by
  rw [submitProof_eq, RpcService.verifyProof]
  simp only [Program.bind_eq, Program.load, Program.bind, Program.run, current, Program.perform]
  exact ⟨_, Program.history_suffix environment _ state _⟩

/-- The notify line of a template of the pool. -/
theorem response_of_getBlockTemplate (job : MiningJob) {template : JobTemplate} {publicKey hash : Bytes}
    {milliseconds : ℕ} (built : template.block = getBlockTemplate publicKey hash milliseconds)
    (hashSize : hash.length = 32) :
    ∃ swapped params, swap32 hash.reverse = some swapped ∧
      job.response template = .ok (.notify params) ∧ params.jobId = job.jobId ∧
      params.prevHash = swapped.toHex ∧ params.coinbasePart1 = "" ∧ params.coinbasePart2 = "" ∧
      params.merkleBranch = [publicKey.toHex] ∧ params.version = hexText 0x20000000 := by
  have current : template.block.currentblockhash = hash.toHex := by
    rw [built]
    rfl
  obtain ⟨swapped, defined, response⟩ := job.response_of_hash template current (by omega)
  refine ⟨swapped, _, defined, response, rfl, rfl, rfl, rfl, ?_, ?_⟩
  · show template.block.transactions = _
    rw [built]
    rfl
  · show hexText template.block.version = _
    rw [built]
    rfl

/-- Every run of a submission at the chain service first constructs one given proof. -/
def Verifies (service : RpcService) (hash : Bytes) (submission : Submission) (proof : ComptokenProof) :
    Prop :=
  ∀ (environment : RpcHistory → (call : RpcCall) → RpcAnswer call) (state : RpcState),
    state.blockHash = some hash → ∃ answer, [Event.called (.constructProof proof) answer] <:+
      ((service.submitProof submission).run environment state []).history

/-- The share of a rolled submit carries the values of the work. -/
theorem verifies_of_rolled (sha256 : Bytes → Bytes) (service : RpcService) {hash : Bytes}
    {outcomes : SubmitOutcomes} {client : ClientState} {template : JobTemplate} {milliseconds : ℕ}
    {message : MiningSubmitMessage} {submission : Submission} {sessionId : String} {work : MiningWork}
    {nonce bitsSet : BitVec 32} (built : template.block = getBlockTemplate service.publicKey hash milliseconds)
    (session : client.extraNonceAndSessionId = some sessionId)
    (sent : message.versionMask = some (.string (hexText bitsSet.toNat)))
    (padded : message.nonce = padStart 8 (hexText nonce.toNat))
    (mined : work = {
      pubkey := service.publicKey
      recentBlockHash := hash
      extraData := StratumClient.doubleSHA256 sha256 (Bytes.ofHex (sessionId ++ message.extraNonce2))
      version := Number.or (.ofNat 0x20000000) (.ofNat bitsSet.toNat)
      timestamp := parseHex message.ntime
      startNonce := 0 })
    (shared : outcomes.shareOf sha256 client message template = some submission) :
    Verifies service hash submission (work.proof nonce service.target) := by
  have small : ∀ word : BitVec 32, word.toNat ≤ 2 ^ 53 := fun word => word.isLt.le.trans (by norm_num)
  have text : extraDataText template.block client.extraNonceAndSessionId message.extraNonce2 =
      sessionId ++ message.extraNonce2 := by
    rw [extraDataText, built, session]
    simp [getBlockTemplate]
  have rolled : parseHex message.versionMask.text = .ofNat bitsSet.toNat := by
    rw [sent]
    exact parseHex_hexText (small bitsSet)
  have version : template.block.version = 0x20000000 := by
    rw [built]
    rfl
  unfold SubmitOutcomes.shareOf SubmitOutcomes.proofOf at shared
  rw [text, rolled, version, padded, parseHex_padStart 8 (small nonce)] at shared
  split at shared
  · obtain ⟨authorization, _, share⟩ := Option.map_eq_some_iff.mp shared
    intro environment state current
    have constructed := submitProof_constructs service submission environment current
    rw [← share] at constructed ⊢
    rw [mined]
    exact constructed
  · cases shared

/-- The script mines every notify line of the pool. Its submit names the job of the line, and it reaches
the chain service exactly when the connection is ready and the fee is valid. The chain service then
verifies the values that the script has mined with. -/
theorem submit_verifies_mined_values (sha256 : Bytes → Bytes) {service : RpcService} {hash : Bytes}
    {milliseconds : ℕ} {template : JobTemplate} (job : MiningJob) {miner : MinerState}
    {client : ClientState} {environment : MinerHistory → (call : MinerCall) → MinerAnswer call}
    (built : template.block = getBlockTemplate service.publicKey hash milliseconds)
    (hashSize : hash.length = 32) (keySize : service.publicKey.length = 32)
    (takes : TakesKeys environment) (agrees : Agrees miner client) (opened : client.Initialized) :
    ∃ line work asked, job.response template = .ok line ∧
      minings ((handleLine sha256 line).run environment miner []).history =
        [(work, environment asked (.mine work))] ∧
      ∀ nonce, environment asked (.mine work) = .ok nonce → ∃ fields message,
        ((handleLine sha256 line).run environment miner []).result = .ok fields ∧
        MiningSubmitMessage.decode fields = .ok (.valid message) ∧ message.jobId = job.jobId ∧
        ∀ outcomes : SubmitOutcomes,
          (∀ other, outcomes.jobTemplate = some (.own other) → other = template) →
          ((outcomes.ShareReady client ∧ validFee outcomes.fee = true) ↔
            ∃ submission, handedOn sha256 outcomes client fields = [submission]) ∧
          ∀ submission ∈ handedOn sha256 outcomes client fields,
            Verifies service hash submission (work.proof nonce service.target) := by
  obtain ⟨configuration, configured, rolling, masked⟩ := agrees.rolling
  obtain ⟨swapped, params, defined, response, jobId, prevHash, first, second, branch, version⟩ :=
    response_of_getBlockTemplate job built hashSize
  obtain ⟨bitsSet, extraNonce2, work, asked, inside, low, mined, searched, submits⟩ :=
    run_handleLine sha256 takes agrees.size masked defined prevHash branch keySize version
      (by norm_num)
  rw [first, second, String.empty_append, String.append_empty] at mined
  refine ⟨_, work, asked, response, searched, ?_⟩
  intro nonce found
  have submit := method_createSubmitMessage "worker1" params.jobId extraNonce2 params.timestamp
    (padStart 8 (hexText nonce.toNat)) (hexText bitsSet.toNat) miner.nextId
  obtain ⟨message, decoded, sameJob, sameExtraNonce2, sameTime, padded, sent⟩ :=
    decode_createSubmitMessage "worker1" params.jobId extraNonce2 params.timestamp
      (padStart 8 (hexText nonce.toNat)) (hexText bitsSet.toNat) miner.nextId
  rw [← sameExtraNonce2, ← sameTime] at mined
  refine ⟨_, message, submits nonce found, decoded, sameJob.trans jobId, ?_⟩
  intro outcomes stored
  obtain ⟨ready, unready⟩ := handedOn_of_rolled sha256 opened submit decoded configured rolling inside
    sent stored
  constructor
  · constructor
    · rintro ⟨shareReady, fee⟩
      have share := (isSome_shareOf_iff sha256 message template shareReady.1).mpr fee
      obtain ⟨submission, shared⟩ := Option.isSome_iff_exists.mp share
      rw [ready shareReady, shared]
      exact ⟨submission, rfl⟩
    · rintro ⟨submission, calls⟩
      by_cases shareReady : outcomes.ShareReady client
      · rw [ready shareReady, Option.toList_eq_singleton_iff] at calls
        have share := Option.isSome_iff_exists.mpr ⟨submission, calls⟩
        exact ⟨shareReady, (isSome_shareOf_iff sha256 message template shareReady.1).mp share⟩
      · rw [unready shareReady] at calls
        cases calls
  · intro submission member
    by_cases shareReady : outcomes.ShareReady client
    · rw [ready shareReady, Option.mem_toList] at member
      exact verifies_of_rolled sha256 service built agrees.session sent padded mined member
    · rw [unready shareReady] at member
      cases member

/-- The script after it has connected to the pool of `rollingConnection`. -/
def rollingMiner : MinerState := { versionRollingMask := "1fffe000", sessionId := "00c0ffee" }

def rollingService : RpcService := ⟨List.replicate 32 7, "devnet"⟩

/-- The template that `acceptingOutcomes` stores. -/
def rollingTemplate : JobTemplate :=
  ⟨getBlockTemplate (List.replicate 32 7) (List.replicate 32 1) 0, ⟨"2", 0, false⟩⟩

/-- A library that finds the nonce 7 for every work. -/
def luckyLibrary (_ : MinerHistory) : (call : MinerCall) → MinerAnswer call
  | .request _ => .setDifficulty 0
  | .endSocket => ()
  | .random => 0x01020304
  | .publicKey key => if key.length = 32 then .ok key else .error (.error "Invalid public key input")
  | .mine _ => .ok 7

theorem luckyLibrary_takesKeys : TakesKeys luckyLibrary := by
  intro history key size
  show (if key.length = 32 then _ else _) = _
  rw [if_pos size]

theorem rollingMiner_agrees : Agrees rollingMiner rollingConnection :=
  ⟨rfl, rfl, _, rfl, rfl, by decide⟩

/-- The submit of one line hands a single share on, and the chain service verifies the mined values. -/
theorem submit_verifies_mined_values_session :
    ∃ line work fields submission,
      (MiningJob.mk "2" "2").response rollingTemplate = .ok line ∧
      minings ((handleLine id line).run luckyLibrary rollingMiner []).history = [(work, .ok 7)] ∧
      ((handleLine id line).run luckyLibrary rollingMiner []).result = .ok fields ∧
      handedOn id acceptingOutcomes rollingConnection fields = [submission] ∧
      Verifies rollingService (List.replicate 32 1) submission (work.proof 7 rollingService.target) := by
  have built : rollingTemplate.block =
      getBlockTemplate rollingService.publicKey (List.replicate 32 1) 0 := rfl
  obtain ⟨line, work, asked, response, searched, submits⟩ :=
    submit_verifies_mined_values id ⟨"2", "2"⟩ built (List.length_replicate ..)
      (List.length_replicate ..) luckyLibrary_takesKeys rollingMiner_agrees rollingConnection_initialized
  obtain ⟨fields, message, built, _, _, handled⟩ := submits 7 rfl
  obtain ⟨ready, verified⟩ := handled acceptingOutcomes fun other same => by cases same; rfl
  obtain ⟨submission, calls⟩ := ready.mp ⟨⟨rfl, .inl rfl, rfl, _, rfl⟩, by decide⟩
  have member : submission ∈ handedOn id acceptingOutcomes rollingConnection fields := by
    rw [calls]
    exact List.mem_singleton_self submission
  exact ⟨line, work, fields, submission, response, searched, built, calls, verified submission member⟩

end ComptoMiningPool
