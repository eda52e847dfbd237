import ComptoMiningPool.Async.Frame
import ComptoMiningPool.Client.StratumV1Client

/-
This file models the client service. Callers queue their new clients, a timer inserts the queue in one
batch, and rows are deleted by session id and by age.
-/

namespace ComptoMiningPool

open JavaScript Async

abbrev ObjectLiteral := Dictionary Json

/-- This is `{ ...first, ...second }`. -/
def spread (first second : ObjectLiteral) : ObjectLiteral := fun key => (second key).or (first key)

/-- The properties of a partial client. A date is its number of milliseconds. -/
def PartialClient.toObject (partialClient : PartialClient) : ObjectLiteral
  | "sessionId" => partialClient.sessionId.map Json.string
  | "address" => some (.string partialClient.address)
  | "clientName" => some (.string partialClient.clientName)
  | "userAgent" => some (.string partialClient.userAgent)
  | "startTime" => some (.number (.ofNat partialClient.startTime))
  | "bestDifficulty" => some (.number (.ofNat partialClient.bestDifficulty))
  | _ => none

/-- An entry names its subject, which no other entry has. -/
structure QueueEntry where
  result : ℕ
  partialClient : PartialClient

/-- A row has the columns of the client of its entry. Its dates are whole seconds. -/
structure ClientRow where
  entry : QueueEntry
  updatedAt : ℕ
  deletedAt : Option ℕ

/-- The fields of the service, the values of its subjects, the table of clients, and the clock in
milliseconds. A subject may hold `undefined`. -/
structure ClientServiceState where
  insertQueue : List QueueEntry := []
  subjects : ℕ → Option ObjectLiteral := fun _ => none
  nextSubject : ℕ := 0
  rows : List ClientRow := []
  now : ℕ := 0

/-- The calls of the service. A batch keeps its entries, whose partial clients are its rows. The calls
`queued`, `resolved` and `rejected` record what a caller of `insert` has queued and received. -/
inductive ServiceCall where
  | insertRows (entries : List QueueEntry)
  | killRows (fiveMinutes : ℕ)
  | softDelete (sessionId : String)
  | now
  | turn
  | queued (entry : QueueEntry)
  | resolved (client : ObjectLiteral)
  | rejected (thrown : Thrown)

@[reducible] def ServiceAnswer : ServiceCall → Type
  | .insertRows _ => Except Thrown (List ObjectLiteral)
  | .killRows _ => Except Thrown Unit
  | .softDelete _ => Except Thrown Unit
  | .now => ℕ
  | _ => Unit

def ServiceCall.OfDatabase : ServiceCall → Prop
  | .insertRows _ => True
  | .killRows _ => True
  | .softDelete _ => True
  | _ => False

abbrev ServiceProgram (V : Type) := Program ClientServiceState ServiceAnswer Thrown V

/-- This is `subject.next(value)`. -/
def nextValue (subject : ℕ) (value : Option ObjectLiteral) : ServiceProgram Unit :=
  .modify fun state => { state with subjects := Function.update state.subjects subject value }

/-- This is `new BehaviorSubject({})`. -/
def newSubject : ServiceProgram ℕ := do
  let state ← .load
  .modify fun state => { state with nextSubject := state.nextSubject + 1 }
  nextValue state.nextSubject (some Dictionary.empty)
  pure state.nextSubject

/-- A behavior subject emits its value as soon as it is subscribed to, so one turn is enough. -/
def firstValueFrom (subject : ℕ) : ServiceProgram (Option ObjectLiteral) := do
  let state ← .load
  Program.awaiting ServiceCall.turn
  pure (state.subjects subject)

namespace ClientService

def insert (partialClient : PartialClient) : ServiceProgram ObjectLiteral := do
  let result ← newSubject
  .modify fun state => { state with insertQueue := state.insertQueue ++ [⟨result, partialClient⟩] }
  Program.perform (ServiceCall.queued ⟨result, partialClient⟩)
  let generatedMap ← firstValueFrom result
  pure (spread partialClient.toObject (generatedMap.getD Dictionary.empty))

/-- A batch is inserted as a whole or not at all. -/
def insertRows (entries : List QueueEntry) : ServiceProgram (List ObjectLiteral) := do
  let answer ← .awaiting (.insertRows entries)
  let generatedMaps ← .ofExcept answer
  .modify fun state =>
    { state with rows := state.rows ++ entries.map fun entry => ⟨entry, state.now / 1000, none⟩ }
  pure generatedMaps

/-- The loop hands each entry the generated map at its own index. -/
def handOver (generatedMaps : List ObjectLiteral) : List QueueEntry → ℕ → ServiceProgram Unit
  | [], _ => pure ()
  | entry :: rest, index => do
      nextValue entry.result generatedMaps[index]?
      handOver generatedMaps rest (index + 1)

def insertClients : ServiceProgram Unit := do
  let state ← .load
  .modify fun state => { state with insertQueue := [] }
  let generatedMaps ← insertRows state.insertQueue
  handOver generatedMaps state.insertQueue 0

/-- A deletion dates the row and its update. -/
def softDeleted (now : ℕ) (row : ClientRow) : ClientRow :=
  { row with updatedAt := now / 1000, deletedAt := some (now / 1000) }

/-- A row is dead when it is alive and was updated before a second. -/
def isDead (fiveMinutes : ℕ) (row : ClientRow) : Bool :=
  row.deletedAt.isNone && row.updatedAt < fiveMinutes

/-- This is an update of every row that meets a condition. -/
def deleteWhere (condition : ClientRow → Bool) : ServiceProgram Unit :=
  .modify fun state =>
    { state with rows := state.rows.map fun row => if condition row then softDeleted state.now row else row }

def killDeadClients : ServiceProgram Unit := do
  let now ← .perform .now
  let fiveMinutes := (now - 5 * 60 * 1000) / 1000
  let answer ← .awaiting (.killRows fiveMinutes)
  .ofExcept answer
  deleteWhere (isDead fiveMinutes)

def delete (sessionId : String) : ServiceProgram Unit := do
  let answer ← .awaiting (.softDelete sessionId)
  .ofExcept answer
  deleteWhere fun row => row.entry.partialClient.sessionId == some sessionId

end ClientService

/-- The promise of the entity receives the client or the reason of its failure. -/
def receiveClient (partialClient : PartialClient) : ServiceProgram Unit := do
  let received ← Program.attempt
    (((ClientService.insert partialClient).joined .turn).bind fun client => .done (Except.ok client))
    fun thrown => .done (.error thrown)
  match received with
  | .ok client => Program.perform (ServiceCall.resolved client)
  | .error thrown => Program.perform (ServiceCall.rejected thrown)

/-- A session submits for the first time, a timer fires, or a session is destroyed. -/
inductive ServiceTask where
  | submit (session : ℕ) (partialClient : PartialClient)
  | insertClients
  | killDeadClients
  | destroy (session : ℕ) (sessionId : String)

def ServiceTask.program : ServiceTask → ServiceProgram Unit
  | .submit _ partialClient => receiveClient partialClient
  | .insertClients => ClientService.insertClients
  | .killDeadClients => ClientService.killDeadClients
  | .destroy _ sessionId => ClientService.delete sessionId

abbrev ServiceTrace := Trace ServiceAnswer ServiceTask

abbrev ServiceEvent := Event ServiceAnswer ServiceTask

/-- No thread waits for a turn. -/
def TurnsDone (trace : ServiceTrace) : Prop :=
  ∀ me, (own me trace).head? ≠ some (.issued .turn)

/-- The database answers in a task of its own, after every turn has been taken. A batch that succeeds has
one generated map for each of its rows. -/
def serviceAdmits (_ : ℕ) (state : ClientServiceState) (trace : ServiceTrace) :
    (call : ServiceCall) → ServiceAnswer call → Prop
  | .insertRows entries, answer =>
      TurnsDone trace ∧ ∀ generatedMaps, answer = .ok generatedMaps → generatedMaps.length = entries.length
  | .killRows _, _ => TurnsDone trace
  | .softDelete _, _ => TurnsDone trace
  | .now, answer => answer = state.now
  | _, _ => True

/-- The interleavings of the client service. Time passes between its steps. -/
def serviceSemantics : Semantics ClientServiceState ServiceAnswer Thrown Unit ServiceTask where
  program := ServiceTask.program
  mayStart _ _ _ := True
  admits := serviceAdmits
  disturbs before after := ∃ now, before.now ≤ now ∧ after = { before with now := now }

end ComptoMiningPool
