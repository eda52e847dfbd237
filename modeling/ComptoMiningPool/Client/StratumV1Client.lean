import ComptoMiningPool.Jobs.Service
import ComptoMiningPool.Rpc.Service

/-
This file models one stratum connection: its state, its handlers, and its interleavings.
-/

namespace ComptoMiningPool

open JavaScript Async

/-- The promise that creates the entity settles once. -/
inductive EntityPromise where
  | pending
  | settled (result : Except Thrown Unit)

/-- The fields of the connection and the two flags of its socket. -/
structure ClientState where
  clientSubscription : Option SubscriptionMessage := none
  clientConfiguration : Option ConfigurationMessage := none
  clientAuthorization : Option AuthorizationMessage := none
  stratumSubscription : Bool := false
  stratumInitialized : Bool := false
  entity : Bool := false
  creatingEntity : Option EntityPromise := none
  extraNonceAndSessionId : Option String := none
  sessionStart : Option ℕ := none
  destroyed : Bool := false
  writableEnded : Bool := false

/-- The columns of a new client entity. -/
structure PartialClient where
  sessionId : Option String
  address : String
  clientName : String
  userAgent : String
  startTime : ℕ
  bestDifficulty : ℕ

/-- The chain service replies with a result of `true` or with an error that has a value. -/
structure ProofReply where
  reply : Reply Bool
  decided : reply = .result true ∨ hasValue reply.error? = true

/-- An assertion names the value that it asserts. -/
inductive Asserted where
  | clientSubscription
  | clientAuthorization
  | extraNonceAndSessionId
  | jobTemplate
  | versionMask
  | fee
  deriving DecidableEq

/-- The calls of the connection. The call `initializing` is the log line of `initStratum`, and the
call `authorized` records that a handler has stored its message. -/
inductive ClientCall where
  | validateSubscription (fields : Fields)
  | validateConfiguration (fields : Fields)
  | validateAuthorization (fields : Fields)
  | validateSubmit (fields : Fields)
  | writeSocket (line : Line)
  | endSocket
  | destroySocket
  | startDestroy
  | now
  | randomBytes
  | configText (key default : String)
  | configNumber (key : String) (default : Number)
  | insertClient (client : PartialClient)
  | deleteClient (sessionId : String)
  | creatingEntity
  | getJobById (jobId : String)
  | getJobTemplateById (jobTemplateId : Option String)
  | addJob (template : JobTemplate)
  | subscribeNewMiningJob
  | unsubscribe
  | submitProof (submission : Submission)
  | assert (asserted : Asserted) (holds : Bool)
  | initializing
  | authorized (message : AuthorizationMessage)
  | turn

@[reducible] def ClientAnswer : ClientCall → Type
  | .validateSubscription _ => Except Thrown (Validated SubscriptionMessage)
  | .validateConfiguration _ => Except Thrown (Validated ConfigurationMessage)
  | .validateAuthorization _ => Except Thrown (Validated AuthorizationMessage)
  | .validateSubmit _ => Except Thrown (Validated MiningSubmitMessage)
  | .writeSocket _ => Except Thrown Unit
  | .now => ℕ
  | .randomBytes => BitVec 32
  | .configText _ _ => String
  | .configNumber _ _ => Number
  | .insertClient _ => Except Thrown Unit
  | .deleteClient _ => Except Thrown Unit
  | .creatingEntity => Except Thrown Unit
  | .getJobById _ => Option (Entry MiningJob)
  | .getJobTemplateById _ => Option (Entry JobTemplate)
  | .addJob _ => MiningJob
  | .submitProof _ => Except Thrown ProofReply
  | _ => Unit

abbrev ClientProgram (V : Type) := Program ClientState ClientAnswer Thrown V

/-- A failed assertion throws an error with its message. -/
def assert (asserted : Asserted) (condition : Bool) (message : String) : ClientProgram Unit := do
  Program.perform (ClientCall.assert asserted condition)
  if condition then pure () else .failed (.error message)

/-- The socket takes no more writes after its end. -/
def endSocket : ClientProgram Unit := do
  Program.perform ClientCall.endSocket
  .modify fun state => { state with writableEnded := true }
  .awaiting ClientCall.turn

def destroySocket : ClientProgram Unit := do
  Program.perform ClientCall.destroySocket
  .modify fun state => { state with destroyed := true }

/-- A closed socket is destroyed. -/
def writeToClosed : ClientProgram Bool := do
  Program.perform ClientCall.startDestroy
  let state ← .load
  if !state.destroyed then destroySocket
  pure false

/-- A failed write ends the socket, or it destroys a socket that has ended. -/
def writeFailed : ClientProgram Bool := do
  Program.perform ClientCall.startDestroy
  let state ← .load
  if !state.writableEnded then endSocket
  else if !state.destroyed then destroySocket
  pure false

/-- A write returns `true` when the socket has taken the line. A write to a closed socket and a
failed write both return `false`. -/
def write (message : Line) : ClientProgram Bool :=
  Program.attempt
    (do
      let state ← .load
      if !state.destroyed && !state.writableEnded then
        let written ← .awaiting (.writeSocket message)
        .ofExcept written
        pure true
      else writeToClosed)
    fun _ => writeFailed

/-- The validation error is answered here. Its callers receive what the write returned. -/
def validateMessage {M : Type} (validate : ClientProgram (Validated M)) :
    ClientProgram (Except Bool M) := do
  match ← validate with
  | .invalid id errors =>
      let written ← (write (.error id .otherUnknown "Validation error"
        (errors.map ValidationError.value))).joined .turn
      pure (.error written)
  | .valid message => pure (.ok message)

def validateSubscription (fields : Fields) : ClientProgram (Validated SubscriptionMessage) := do
  let answer ← .awaiting (.validateSubscription fields)
  .ofExcept answer

def validateConfiguration (fields : Fields) : ClientProgram (Validated ConfigurationMessage) := do
  let answer ← .awaiting (.validateConfiguration fields)
  .ofExcept answer

def validateAuthorization (fields : Fields) : ClientProgram (Validated AuthorizationMessage) := do
  let answer ← .awaiting (.validateAuthorization fields)
  .ofExcept answer

def validateSubmit (fields : Fields) : ClientProgram (Validated MiningSubmitMessage) := do
  let answer ← .awaiting (.validateSubmit fields)
  .ofExcept answer

def getRandomHexString (randomNumber : BitVec 32) : String := padStart 8 (hexText randomNumber.toNat)

/-- The first subscription starts the session. -/
def startSession : ClientProgram Unit := do
  let state ← .load
  if state.sessionStart.isNone then
    let sessionStart ← .perform .now
    .modify fun state => { state with sessionStart := some sessionStart }
    let randomNumber ← .perform .randomBytes
    .modify fun state =>
      { state with extraNonceAndSessionId := some (getRandomHexString randomNumber) }
  else pure ()

def handleSubscriptionMessage (fields : Fields) : ClientProgram Bool := do
  match ← (validateMessage (validateSubscription fields)).joined .turn with
  | .error written => pure written
  | .ok subscriptionMessage =>
      startSession
      .modify fun state => { state with clientSubscription := some subscriptionMessage }
      let state ← .load
      (write (subscriptionMessage.response state.extraNonceAndSessionId)).joined .turn

def handleConfigureMessage (fields : Fields) : ClientProgram Bool := do
  match ← (validateMessage (validateConfiguration fields)).joined .turn with
  | .error written => pure written
  | .ok configurationMessage =>
      .modify fun state => { state with clientConfiguration := some configurationMessage }
      (write configurationMessage.response).joined .turn

def handleAuthorizationMessage (fields : Fields) : ClientProgram Bool := do
  match ← (validateMessage (validateAuthorization fields)).joined .turn with
  | .error written => pure written
  | .ok authorizationMessage =>
      .modify fun state => { state with clientAuthorization := some authorizationMessage }
      Program.perform (ClientCall.authorized authorizationMessage)
      (write authorizationMessage.response).joined .turn

/-- The executor of the entity promise reads the connection once, before its insertion. -/
def createEntity : ClientProgram Unit := do
  let state ← .load
  assert .extraNonceAndSessionId state.extraNonceAndSessionId.isSome "Assertion failed"
  assert .clientAuthorization state.clientAuthorization.isSome "Assertion failed"
  assert .clientSubscription state.clientSubscription.isSome "Assertion failed"
  let startTime ← .perform .now
  let inserted ← .awaiting (.insertClient {
    sessionId := state.extraNonceAndSessionId
    address := (state.clientAuthorization.map AuthorizationMessage.address).getD ""
    clientName := (state.clientAuthorization.map AuthorizationMessage.worker).getD ""
    userAgent := (state.clientSubscription.map SubscriptionMessage.userAgent).getD ""
    startTime := startTime
    bestDifficulty := 0 })
  .ofExcept inserted
  .modify fun state => { state with entity := true }

/-- The first submission creates the entity, and the later ones await the same promise. -/
def awaitEntity : ClientProgram Unit := do
  let state ← .load
  if state.entity then pure ()
  else
    match state.creatingEntity with
    | none =>
        .modify fun state => { state with creatingEntity := some .pending }
        let result ← Program.attempt (createEntity.bind fun _ => .done (Except.ok ())) fun thrown =>
          .done (.error thrown)
        .modify fun state => { state with creatingEntity := some (.settled result) }
        Program.awaiting ClientCall.turn
        .ofExcept result
    | some _ =>
        let result ← .awaiting .creatingEntity
        .ofExcept result

def doubleSHA256 (sha256 : Bytes → Bytes) (data : Bytes) : Bytes := sha256 (sha256 data)

/-- The extra data joins the coinbase parts, the session id, and the second nonce. -/
def extraDataText (block : BlockTemplate) (extraNonceAndSessionId : Option String)
    (extraNonce2 : String) : String :=
  block.coinbasePart1 ++ extraNonceAndSessionId.getD "null" ++ extraNonce2 ++ block.coinbasePart2

/-- A rejected mask returns what its own write returned. -/
def rollVersion (submission : MiningSubmitMessage) (version : ℕ) : ClientProgram (Except Bool Number) := do
  let state ← .load
  match state.clientConfiguration with
  | none => pure (.ok (.ofNat version))
  | some clientConfiguration =>
      if clientConfiguration.versionRolling then
        assert .versionMask (hasValue submission.versionMask)
          "Version mask is required for version rolling"
        let versionMask := parseHex submission.versionMask.text
        if versionMask.toInt32 &&& ~~~clientConfiguration.versionRollingMask.word ≠ 0 then
          let written ← (write (.error submission.id .otherUnknown "Invalid version mask" [])).joined .turn
          pure (.error written)
        else pure (.ok (Number.or (.ofNat version) versionMask))
      else pure (.ok (.ofNat version))

/-- The recipient is the address of the authorization that the connection holds at this moment. -/
def payMiner (submission : MiningSubmitMessage) (extraData : Bytes) (version : Number) :
    ClientProgram Bool := do
  let fee ← .perform (.configNumber "FEE" 100)
  assert .fee (validFee fee) "FEE must be between 0 and 100_00"
  let state ← .load
  match state.clientAuthorization with
  | none => .failed .typeError
  | some clientAuthorization =>
      let answer ← .awaiting (.submitProof {
        extraData := extraData
        nonce := parseHex submission.nonce
        version := version
        timestamp := parseHex submission.ntime
        recipient := clientAuthorization.address
        fee := fee })
      let mintComptokensResult ← .ofExcept answer
      let error := mintComptokensResult.reply.error?
      if hasValue error then
        if error.isString && error.text == "Difficulty too low" then
          let _ ← (write (.error submission.id .lowDifficultyShare "Difficulty too low" [])).joined .turn
          pure false
        else
          let _ ← (write (.error submission.id .otherUnknown "Error mining comptokens" [])).joined .turn
          pure false
      else pure true

/-- An inherited member of the dictionary of jobs has no template id. -/
def jobTemplateIdOf : Entry MiningJob → Option String
  | .own job => some job.jobTemplateId
  | .inherited => none

/-- The share of a stored job is hashed, rolled, and passed to the chain service. -/
def submitShare (sha256 : Bytes → Bytes) (submission : MiningSubmitMessage) (jobTemplate : JobTemplate) :
    ClientProgram Bool := do
  let state ← .load
  let xhashbuf := Bytes.ofHex
    (extraDataText jobTemplate.block state.extraNonceAndSessionId submission.extraNonce2)
  match ← rollVersion submission jobTemplate.block.version with
  | .error written => pure written
  | .ok version => payMiner submission (doubleSHA256 sha256 xhashbuf) version

/-- A submission returns `false` when it is rejected, unless its mask is rejected. -/
def handleMiningSubmission (sha256 : Bytes → Bytes) (submission : MiningSubmitMessage) :
    ClientProgram Bool := do
  let state ← .load
  assert .clientAuthorization state.clientAuthorization.isSome "Client authorization is null"
  awaitEntity
  let job ← Program.perform (ClientCall.getJobById submission.jobId)
  match job with
  | none =>
      let _ ← (write (.error submission.id .jobNotFound "Job not found" [])).joined .turn
      pure false
  | some job =>
      let jobTemplate ← Program.perform (ClientCall.getJobTemplateById (jobTemplateIdOf job))
      assert .jobTemplate jobTemplate.isSome "Job template not found"
      match jobTemplate with
      | some (.own jobTemplate) => submitShare sha256 submission jobTemplate
      | _ => .failed .typeError

/-- A submit before a configuration is answered as a forbidden version mask. -/
def handleSubmitMessage (sha256 : Bytes → Bytes) (fields : Fields) : ClientProgram Bool := do
  match ← (validateMessage (validateSubmit fields)).joined .turn with
  | .error written => pure written
  | .ok miningSubmitMessage =>
      let state ← .load
      if state.clientConfiguration.map ConfigurationMessage.versionRolling ≠
          some (hasValue miningSubmitMessage.versionMask) then
        let message := if !hasValue miningSubmitMessage.versionMask
          then "Version mask is required for version rolling" else "Version mask is not allowed"
        let _ ← (write (.error miningSubmitMessage.id .otherUnknown message [])).joined .turn
        pure false
      else
        let result ← (handleMiningSubmission sha256 miningSubmitMessage).joined .turn
        if !result then pure false
        else (write miningSubmitMessage.response).joined .turn

/-- The connection subscribes to the job stream after it has written the difficulty. -/
def setDifficultyAndSubscribe (sessionDifficulty : Number) : ClientProgram Unit := do
  let success ← (write (.setDifficulty sessionDifficulty)).joined .turn
  if !success then pure ()
  else
    Program.perform ClientCall.subscribeNewMiningJob
    .modify fun state => { state with stratumSubscription := true }

def initStratum : ClientProgram Unit := do
  Program.perform ClientCall.initializing
  let state ← .load
  assert .clientSubscription state.clientSubscription.isSome "Client subscription is null"
  assert .clientAuthorization state.clientAuthorization.isSome "Client autorization is null"
  .modify fun state => { state with stratumInitialized := true }
  let cluster ← .perform (.configText "SOLANA_CLUSTER" "devnet")
  let rawDifficulty ← .perform (.configNumber "COMPTOKEN_DIFFICULTY"
    (if cluster = "mainnet-beta" then 0x180eadd8 else 0x200eadd8))
  setDifficultyAndSubscribe (calculateNetworkDifficulty rawDifficulty)

def sendNewMiningJob (jobTemplate : JobTemplate) : ClientProgram Unit := do
  let job ← Program.perform (ClientCall.addJob jobTemplate)
  let line ← .ofExcept (job.response jobTemplate)
  let _ ← (write line).joined .turn

/-- A request carries its fields when it is an object. -/
def requestFields : Json → Fields
  | .object fields => fields
  | _ => []

/-- Each method runs its handler. The result tells whether the message goes on. -/
def dispatch (sha256 : Bytes → Bytes) (method : Option RequestMethod) (fields : Fields) :
    ClientProgram Bool :=
  match method with
  | some .subscribe => (handleSubscriptionMessage fields).joined .turn
  | some .configure => (handleConfigureMessage fields).joined .turn
  | some .authorize => (handleAuthorizationMessage fields).joined .turn
  | some .suggestDifficulty => pure true
  | some .submit => do
      let state ← .load
      if !state.stratumInitialized then
        endSocket
        pure false
      else (handleSubmitMessage sha256 fields).joined .turn
  | none => pure true

/-- The connection starts its stratum after the first message that finds both parts in place. -/
def startWhenReady : ClientProgram Unit := do
  let state ← .load
  if state.clientSubscription.isSome && state.clientAuthorization.isSome &&
      !state.stratumInitialized then
    initStratum.joined .turn
  else pure ()

/-- A line is absent when its text is no JSON. -/
def handleMessage (sha256 : Bytes → Bytes) (line : Option Json) : ClientProgram Unit :=
  match line with
  | none => endSocket
  | some parsedMessage => do
      let method ← .ofExcept (Value.field (some parsedMessage) "method")
      let success ← dispatch sha256 (RequestMethod.ofValue method) (requestFields parsedMessage)
      if !success then pure () else startWhenReady

def destroy : ClientProgram Unit := do
  let state ← .load
  match state.extraNonceAndSessionId with
  | none => pure ()
  | some sessionId =>
      let deleted ← .awaiting (.deleteClient sessionId)
      .ofExcept deleted
  let state ← .load
  if state.stratumSubscription then Program.perform ClientCall.unsubscribe

/-- An error in a callback of the socket or of the job stream ends the socket. -/
def guarded (program : ClientProgram Unit) : ClientProgram Unit :=
  (program.joined .turn).attempt fun _ => endSocket

/-- A line arrives, the job stream emits a template, or the connection is torn down. -/
inductive ClientTask where
  | line (message : Option Json)
  | newMiningJob (template : JobTemplate)
  | destroy

def ClientTask.program (sha256 : Bytes → Bytes) : ClientTask → ClientProgram Unit
  | .line message => guarded (handleMessage sha256 message)
  | .newMiningJob template => guarded (sendNewMiningJob template)
  | .destroy => ComptoMiningPool.destroy

abbrev ClientTrace := Trace ClientAnswer ClientTask

abbrev ClientEvent := Event ClientAnswer ClientTask

/-- Templates reach the connection only after it has subscribed to the job stream. -/
def ClientTask.mayStart (trace : ClientTrace) : ClientTask → Prop
  | .newMiningJob _ => ∃ me, (me, .called .subscribeNewMiningJob ()) ∈ trace
  | _ => True

/-- The decoder validates every request, and the entity promise answers with its own result. Every
other call may answer anything. -/
def clientAdmits (decoder : Decoder) (_ : Nat) (state : ClientState) (_ : ClientTrace) :
    (call : ClientCall) → ClientAnswer call → Prop
  | .validateSubscription fields, answer => answer = decoder.subscription fields
  | .validateConfiguration fields, answer => answer = decoder.configuration fields
  | .validateAuthorization fields, answer => answer = decoder.authorization fields
  | .validateSubmit fields, answer => answer = decoder.submit fields
  | .creatingEntity, answer => state.creatingEntity = some (.settled answer)
  | _, _ => True

/-- The peer may close the socket at any time, and a closed socket stays closed. -/
def socketCloses (before after : ClientState) : Prop :=
  ∃ destroyed writableEnded, after = { before with
    destroyed := before.destroyed || destroyed
    writableEnded := before.writableEnded || writableEnded }

/-- The interleavings of one connection. -/
def clientSemantics (sha256 : Bytes → Bytes) (decoder : Decoder) :
    Semantics ClientState ClientAnswer Thrown Unit ClientTask where
  program := ClientTask.program sha256
  mayStart _ trace task := task.mayStart trace
  admits := clientAdmits decoder
  disturbs := socketCloses

end ComptoMiningPool
