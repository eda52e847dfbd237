import ComptoMiningPool.Async.Interleaving
import ComptoMiningPool.Stratum.Messages

/-
This file models the chain service: the submission of a proof and the polling for block hashes.
-/

namespace ComptoMiningPool

open JavaScript Async

/-- The service polls with intervals. It numbers them and keeps the running ones. -/
structure RpcState where
  blockHash : Option Bytes := none
  newBlock : Bytes := []
  intervals : ℕ := 0
  running : List ℕ := []

inductive ProofTarget where
  | targetBytes
  | targetBytesDevnet

/-- A proof is named by the values that it is constructed from. -/
structure ComptokenProof where
  pubkey : Bytes
  recentBlockHash : Bytes
  extraData : Bytes
  nonce : Number
  version : Number
  timestamp : Number
  target : ProofTarget

/-- The external calls of the service. The turn is the microtask that follows an asynchronous call. -/
inductive RpcCall where
  | constructProof (proof : ComptokenProof)
  | isLowerThanTarget (proof : ComptokenProof)
  | submitMiningProof (proof : ComptokenProof)
  | fetchUserData
  | resizeUserDataAccount (newCapacity : ℕ)
  | createTransferInstruction (recipient : String) (amount : ℤ)
  | sendAndConfirmTransaction (recipient : String) (amount : ℤ)
  | syncValidBlockhashes
  | nextBlock (hash : Bytes)
  | collect
  | turn

/-- Each chain call returns or throws any value. -/
@[reducible] def RpcAnswer : RpcCall → Type
  | .constructProof _ => Except Thrown Unit
  | .isLowerThanTarget _ => Except Thrown Bool
  | .submitMiningProof _ => Except Thrown String
  | .fetchUserData => Except Thrown ℕ
  | .resizeUserDataAccount _ => Except Thrown String
  | .createTransferInstruction _ _ => Except Thrown Unit
  | .sendAndConfirmTransaction _ _ => Except Thrown String
  | .syncValidBlockhashes => Except Thrown Bytes
  | .nextBlock _ => Unit
  | .collect => Except Thrown Unit
  | .turn => Unit

abbrev RpcProgram (V : Type) := Program RpcState RpcAnswer Thrown V

/-- A reply carries either a `result` or an `error`. -/
inductive Reply (α : Type) where
  | result (value : α)
  | error (message : Value)

/-- This reads the property `error` of a reply. -/
def Reply.error? {α : Type} : Reply α → Value
  | .result _ => none
  | .error message => message

/-- A logged call keeps the thrown value beside its message. -/
inductive Logged (α : Type) where
  | result (value : α)
  | error (error : Value) (rawError : Thrown)

def Logged.reply {α : Type} : Logged α → Reply α
  | .result value => Reply.result value
  | .error message _ => Reply.error message

/-- An error logs its message, whatever the message is. Other values log a fixed text. -/
def loggedError (thrown : Thrown) : Value :=
  if thrown.isError then thrown.message else some (.string "Unknown error")

def logged {α : Type} : Except Thrown α → Logged α
  | .ok value => Logged.result value
  | .error thrown => Logged.error (loggedError thrown) thrown

def tryWithLog {α : Type} (fn : RpcProgram α) : RpcProgram (Logged α) :=
  ((fn.joined RpcCall.turn).bind fun value => .done (.result value)).attempt fun thrown =>
    .done (.error (loggedError thrown) thrown)

/-- The chain service belongs to one key pair and one cluster. -/
structure RpcService where
  publicKey : Bytes
  solanaCluster : String

namespace RpcService

def target (service : RpcService) : ProofTarget :=
  if service.solanaCluster = "mainnet-beta" then .targetBytes else .targetBytesDevnet

def verifyProof (service : RpcService) (extraData : Bytes) (nonce version timestamp : Number)
    (pubkey : Bytes) : RpcProgram (Reply ComptokenProof) := do
  let state ← .load
  match state.blockHash with
  | none => .failed (.error "Block hash must be set before mining comptokens")
  | some recentBlockHash =>
      let proof : ComptokenProof :=
        { pubkey, recentBlockHash, extraData, nonce, version, timestamp, target := service.target }
      let constructed ← .perform (.constructProof proof)
      .ofExcept constructed
      let compared ← .perform (.isLowerThanTarget proof)
      let lower ← .ofExcept compared
      if lower then pure (.result proof)
      else pure (.error (some (.string "Difficulty too low")))

end RpcService

def submitMiningProof (proof : ComptokenProof) : RpcProgram String := do
  let answer ← .awaiting (.submitMiningProof proof)
  .ofExcept answer

def fetchUserData : RpcProgram ℕ := do
  let answer ← .awaiting .fetchUserData
  .ofExcept answer

def resizeUserDataAccount (newCapacity : ℕ) : RpcProgram String := do
  let answer ← .awaiting (.resizeUserDataAccount newCapacity)
  .ofExcept answer

def createTransferInstruction (recipient : String) (amount : ℤ) : RpcProgram Unit := do
  let answer ← .awaiting (.createTransferInstruction recipient amount)
  .ofExcept answer

def sendAndConfirmTransaction (recipient : String) (amount : ℤ) : RpcProgram String := do
  let answer ← .awaiting (.sendAndConfirmTransaction recipient amount)
  .ofExcept answer

def increaseUserDataCapacity (additionalCapacity : ℕ) : RpcProgram (Reply String) := do
  let userDataAccountInfoResult ← (tryWithLog fetchUserData).joined .turn
  match userDataAccountInfoResult with
  | .error error _ => pure (.error error)
  | .result currentCapacity =>
      let newCapacity := currentCapacity + additionalCapacity
      let resizeResult ← (tryWithLog (resizeUserDataAccount newCapacity)).joined .turn
      pure resizeResult.reply

def capacityExceeded : String := "UserDataProofsCapacityExceeded"

/-- A full account is resized once, and then the same proof is submitted once more. -/
def mineComptokens (proof : ComptokenProof) : RpcProgram (Reply String) := do
  let mintComptokensResult ← (tryWithLog (submitMiningProof proof)).joined .turn
  match mintComptokensResult with
  | .result signature => pure (.result signature)
  | .error error rawError =>
      if rawError.errorCode = some capacityExceeded then
        let increaseCapacityResult ← (increaseUserDataCapacity 100).joined .turn
        match increaseCapacityResult with
        | .error message => pure (.error message)
        | .result _ =>
            let retried ← (tryWithLog (submitMiningProof proof)).joined .turn
            pure retried.reply
      else pure (.error error)

/-- The mined amount of 100.00 tokens. -/
def mineAmount : Number := 10000

def validFee (fee : Number) : Bool := Number.le 0 fee && Number.le fee 10000

def userPayoutAmount (fee : Number) : Number := Number.sub mineAmount fee

def processFees (recipient : String) (fee : Number) : RpcProgram (Reply String) := do
  if !validFee fee then .failed (.error "Invalid fee rate")
  else if Number.le (userPayoutAmount fee) 0 then pure (.result "No payout to process")
  else
    match (userPayoutAmount fee).toBigInt with
    | none => .failed (.error "The number cannot be converted to a BigInt")
    | some amount =>
        createTransferInstruction recipient amount
        let transferred ← (tryWithLog (sendAndConfirmTransaction recipient amount)).joined .turn
        pure transferred.reply

/-- The arguments of one submission. -/
structure Submission where
  extraData : Bytes
  nonce : Number
  version : Number
  timestamp : Number
  recipient : String
  fee : Number

/-- Both later tests read the truth value of the error, so an empty message passes as a success. -/
def RpcService.submitProof (service : RpcService) (submission : Submission) :
    RpcProgram (Reply Bool) := do
  let proofResult ← service.verifyProof submission.extraData submission.nonce submission.version
    submission.timestamp service.publicKey
  match proofResult with
  | .error message => pure (.error message)
  | .result proof =>
      let mineResult ← (mineComptokens proof).joined .turn
      if mineResult.error?.truthy then pure (.error mineResult.error?)
      else
        let processFeesResult ← (processFees submission.recipient submission.fee).joined .turn
        if processFeesResult.error?.truthy then pure (.error processFeesResult.error?)
        else pure (.result true)

def updateUserData : RpcProgram (Logged Unit) :=
  tryWithLog do
    let answer ← .awaiting .collect
    .ofExcept answer

/-- A thrown error is logged and thrown again. -/
def getMiningInfo : RpcProgram Bytes := do
  let answer ← .awaiting .syncValidBlockhashes
  .ofExcept answer

/-- Promise jobs run in the order of the answers, so the comparison belongs to the answer. -/
def pollMiningInfoOnce : RpcProgram Bool := do
  let miningInfo ← getMiningInfo
  let state ← .load
  if state.blockHash ≠ some miningInfo then
    Program.perform (RpcCall.nextBlock miningInfo)
    .modify fun state => { state with newBlock := miningInfo, blockHash := some miningInfo }
    let _ ← updateUserData.joined .turn
    pure true
  else pure false

/-- Each tick of an interval polls once. The first poll with a new hash clears the interval. -/
def pollTick (interval : ℕ) : RpcProgram Unit := do
  let finished ← pollMiningInfoOnce.joined .turn
  if finished then .modify fun state => { state with running := state.running.erase interval }
  else pure ()

def pollMiningInfo : RpcProgram Unit :=
  .modify fun state =>
    { state with intervals := state.intervals + 1, running := state.intervals :: state.running }

/-- The service polls, ticks, and submits at any time and in any number. -/
inductive RpcTask where
  | pollMiningInfo
  | tick (interval : ℕ)
  | submitProof (submission : Submission)

def RpcService.program (service : RpcService) : RpcTask → RpcProgram Unit
  | .pollMiningInfo => pollMiningInfo
  | .tick interval => pollTick interval
  | .submitProof submission => (service.submitProof submission).bind fun _ => .done ()

/-- An interval ticks while it runs, whether or not its earlier requests are answered. -/
def RpcTask.mayStart (state : RpcState) : RpcTask → Prop
  | .tick interval => interval ∈ state.running
  | _ => True

/-- The semantics is fixed up to the answers that the chain may give. -/
def RpcService.semantics (service : RpcService)
    (admits : Nat → RpcState → Trace RpcAnswer RpcTask → (call : RpcCall) → RpcAnswer call → Prop) :
    Semantics RpcState RpcAnswer Thrown Unit RpcTask where
  program := service.program
  mayStart state _ task := task.mayStart state
  admits := admits
  disturbs _ _ := False

end ComptoMiningPool
