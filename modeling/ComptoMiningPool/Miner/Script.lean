import ComptoMiningPool.Async.Interleaving
import ComptoMiningPool.Async.Lifting
import ComptoMiningPool.Miner.StratumClient

/-
This file models the run of the client script: the promises of its requests and the handlers of its socket.
-/

namespace ComptoMiningPool.StratumClient

open JavaScript Async

/-- The script keeps the resolver of each open request under the id of the request. A promise is settled by the
first line that its resolver receives. -/
structure ScriptState extends MinerState where
  pending : Dictionary ℕ := .empty
  promises : ℕ := 0
  settled : ℕ → Option Line := fun _ => none

/-- The calls of the script. The call `submitAccepted` is its log line. -/
inductive ScriptCall where
  | send (fields : Fields)
  | response (promise : ℕ)
  | endSocket
  | random
  | publicKey (bytes : Bytes)
  | mine (work : MiningWork)
  | submitAccepted (accepted : Bool)

@[reducible] def ScriptAnswer : ScriptCall → Type
  | .send _ => Unit
  | .response _ => Line
  | .endSocket => Unit
  | .random => BitVec 32
  | .publicKey _ => Except Thrown Bytes
  | .mine _ => Except Thrown (BitVec 32)
  | .submitAccepted _ => Unit

abbrev ScriptProgram (V : Type) := Program ScriptState ScriptAnswer Thrown V

/-- The line of the last id goes out, and the resolver of a new promise waits under this id. -/
def send (fields : Fields) : ScriptProgram ℕ := do
  Program.perform (ScriptCall.send fields)
  let state ← .load
  .modify fun state => { state with
    pending := state.pending.insert (toString (state.nextId - 1)) state.promises
    promises := state.promises + 1 }
  pure state.promises

/-- A request awaits the promise of its line. -/
def carryMiner : (call : MinerCall) → ScriptProgram (MinerAnswer call)
  | .request fields => do
      let promise ← send fields
      Program.awaiting (ScriptCall.response promise)
  | .endSocket => Program.perform ScriptCall.endSocket
  | .random => Program.perform ScriptCall.random
  | .publicKey bytes => Program.perform (ScriptCall.publicKey bytes)
  | .mine work => Program.perform (ScriptCall.mine work)

/-- The handlers of the session are programs over the variables of the session. -/
def minerLifting : Lifting MinerState ScriptState MinerAnswer ScriptAnswer Thrown where
  view state := state.toMinerState
  put miner state := { state with toMinerState := miner }
  carry := carryMiner

/-- The id of a line as a key. A notification carries a null id. -/
def lineKey (line : Line) : Option String := (line.id?.getD .null).propertyKey

/-- The resolver settles its promise once, and then its entry is deleted. -/
def resolve (promise : ℕ) (line : Line) (state : ScriptState) : ScriptState :=
  { state with
    settled := fun other => if other = promise then (state.settled promise).or (some line) else state.settled other
    pending := ((lineKey line).map state.pending.erase).getD state.pending }

/-- A line whose id has an entry is a response. An inherited member is no resolver, and a call of it changes
nothing. A job is mined at once and submitted under the next id. -/
def handlePart (sha256 : Bytes → Bytes) (line : Line) : ScriptProgram (Option ℕ) := do
  let state ← .load
  match (lineKey line).bind state.pending.read with
  | some (.own promise) =>
      .modify (resolve promise line)
      pure none
  | some .inherited => pure none
  | none =>
      match line with
      | .notify _ =>
          let submit ← (handleLine sha256 line).lift minerLifting
          some <$> send submit
      | _ => pure none

def parseSubmitResponse (line : Line) : Except Thrown Bool := do
  match ← responseResult "Submit" line with
  | .bool accepted => pure accepted
  | _ => pure false

/-- Every error of a line is caught and logged. The callback of a submit runs after its response. -/
def handleData (sha256 : Bytes → Bytes) (line : Line) : ScriptProgram Unit := do
  match ← (handlePart sha256 line).attempt fun _ => pure none with
  | none => pure ()
  | some promise =>
      let submitResponse ← .awaiting (.response promise)
      let accepted ← .ofExcept (parseSubmitResponse submitResponse)
      Program.perform (ScriptCall.submitAccepted accepted)

/-- The mask of a `mining.set_version_mask` line replaces the mask of the session. -/
def setVersionMask (mask : Value) : ScriptProgram Unit := do
  let mask ← .ofExcept mask.asString
  .modify fun state => { state with versionRollingMask := mask.toLower }

/-- The socket connects, a line arrives, or a line with a new mask arrives under an id of no request. -/
inductive ScriptTask where
  | connected
  | data (line : Line)
  | versionMask (mask : Value)

def ScriptTask.program (sha256 : Bytes → Bytes) (address : String) : ScriptTask → ScriptProgram Unit
  | .connected => (connect address).lift minerLifting
  | .data line => handleData sha256 line
  | .versionMask mask => (setVersionMask mask).attempt fun _ => pure ()

abbrev ScriptEvent := Event ScriptAnswer ScriptTask

abbrev ScriptHistory := History ScriptAnswer ScriptTask

abbrev ScriptTrace := Trace ScriptAnswer ScriptTask

def ScriptEvent.connects : ScriptEvent → Bool
  | .started .connected => true
  | _ => false

/-- The socket connects once, and every line arrives after that. -/
def ScriptTask.mayStart (trace : ScriptTrace) : ScriptTask → Prop
  | .connected => ∀ pair ∈ trace, ScriptEvent.connects pair.2 = false
  | _ => ∃ pair ∈ trace, ScriptEvent.connects pair.2 = true

/-- An await of a promise ends with the line that settled it, and a key of 32 bytes is taken as it is. Every
other call may answer anything. -/
def scriptAdmits (_ : Nat) (state : ScriptState) (_ : ScriptTrace) :
    (call : ScriptCall) → ScriptAnswer call → Prop
  | .response promise, line => state.settled promise = some line
  | .publicKey bytes, pubkey => bytes.length = 32 → pubkey = .ok bytes
  | _, _ => True

/-- The interleavings of one run of the script. -/
def scriptSemantics (sha256 : Bytes → Bytes) (address : String) :
    Semantics ScriptState ScriptAnswer Thrown Unit ScriptTask where
  program := ScriptTask.program sha256 address
  mayStart _ trace task := task.mayStart trace
  admits := scriptAdmits
  disturbs _ _ := False

end ComptoMiningPool.StratumClient
