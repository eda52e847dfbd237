import ComptoMiningPool.Async.Channel
import ComptoMiningPool.Client.Provenance
import ComptoMiningPool.Miner.Agreement
import ComptoMiningPool.Miner.ScriptRun

/-
This file connects the client script to a connection of the pool. It proves that each promise of the script is
settled by the line that the pool wrote for its request.
-/

namespace ComptoMiningPool

open JavaScript Async StratumClient

/-- A line that the script can handle. -/
inductive PoolLine where
  | line (line : Line)
  | versionMask (mask : Value)
  deriving DecidableEq

namespace StratumClient.ScriptEvent

/-- A request goes out as a JSON line. -/
def sends : ScriptEvent → Option (Option Json)
  | .called (.send fields) _ => some (some (.object fields))
  | _ => none

def receives : ScriptEvent → Option PoolLine
  | .started (.data line) => some (.line line)
  | .started (.versionMask mask) => some (.versionMask mask)
  | _ => none

theorem sends_eq {event : ScriptEvent} {message : Option Json} (sent : sends event = some message) :
    ∃ fields, message = some (.object fields) ∧ event = .called (.send fields) () := by
  unfold sends at sent
  split at sent
  · cases sent
    exact ⟨_, rfl, rfl⟩
  · cases sent

end StratumClient.ScriptEvent

namespace ClientEvent

def sends : ClientEvent → Option PoolLine
  | .issued (.writeSocket line) => some (.line line)
  | _ => none

def receives : ClientEvent → Option (Option Json)
  | .started (.line message) => some message
  | _ => none

theorem sends_eq {event : ClientEvent} {message : PoolLine} (sent : sends event = some message) :
    ∃ line, message = .line line ∧ event = .issued (.writeSocket line) := by
  unfold sends at sent
  split at sent
  · cases sent
    exact ⟨_, rfl, rfl⟩
  · cases sent

end ClientEvent

abbrev scriptParty (sha256 : Bytes → Bytes) (address : String) : Party (Option Json) PoolLine :=
  (scriptSemantics sha256 address).party {} ScriptEvent.sends ScriptEvent.receives

abbrev connectionParty (sha256 : Bytes → Bytes) (isPublicKey : String → Bool) : Party PoolLine (Option Json) :=
  (clientSemantics sha256 (stratumDecoder isPublicKey)).party {} ClientEvent.sends ClientEvent.receives

/-- The script faces one connection of the pool over a socket. -/
abbrev SessionLink (sha256 : Bytes → Bytes) (address : String) (isPublicKey : String → Bool) :=
  Link (scriptParty sha256 address) (connectionParty sha256 isPublicKey)

namespace SessionLink

variable {sha256 : Bytes → Bytes} {address : String} {isPublicKey : String → Bool}

def script (link : SessionLink sha256 address isPublicKey) :
    System ScriptState ScriptAnswer Thrown Unit ScriptTask := link.near

def connection (link : SessionLink sha256 address isPublicKey) :
    System ClientState ClientAnswer Thrown Unit ClientTask := link.far

variable {link : SessionLink sha256 address isPublicKey}

theorem script_reached (reached : link.Reachable) :
    Reachable (scriptSemantics sha256 address) {} link.script := reached.near_reached

theorem connection_reached (reached : link.Reachable) :
    Reachable (clientSemantics sha256 (stratumDecoder isPublicKey)) {} link.connection := reached.far_reached

/-- A line that reaches the script was written by the connection. -/
theorem written_of_received (reached : link.Reachable) {me : ℕ} {line : Line}
    (arrived : (me, .started (.data line)) ∈ link.script.trace) :
    ∃ other, (other, .issued (.writeSocket line)) ∈ link.connection.trace := by
  have received : PoolLine.line line ∈ (scriptParty sha256 address).received link.near :=
    Semantics.mem_received.mpr ⟨me, _, arrived, rfl⟩
  obtain ⟨other, event, member, sent⟩ := Semantics.mem_sent.mp (reached.in_order.subset received)
  obtain ⟨written, same, rfl⟩ := ClientEvent.sends_eq sent
  cases same
  exact ⟨other, member⟩

/-- A line that reaches the connection was sent by the script. -/
theorem sent_of_received (reached : link.Reachable) {me : ℕ} {message : Option Json}
    (arrived : (me, .started (.line message)) ∈ link.connection.trace) :
    ∃ other fields, message = some (.object fields) ∧
      (other, .called (.send fields) ()) ∈ link.script.trace := by
  have received : message ∈ (connectionParty sha256 isPublicKey).received link.far :=
    Semantics.mem_received.mpr ⟨me, _, arrived, rfl⟩
  obtain ⟨other, event, member, sent⟩ := Semantics.mem_sent.mp (reached.swap.in_order.subset received)
  obtain ⟨fields, same, rfl⟩ := ScriptEvent.sends_eq sent
  exact ⟨other, fields, same, member⟩

/-- The pool never sets the mask of the script. -/
theorem unmasked (reached : link.Reachable) : Unmasked link.script.trace := by
  rintro ⟨me, event⟩ member
  by_contra sets
  obtain ⟨mask, rfl⟩ : ∃ mask, event = .started (.versionMask mask) := by
    cases event with
    | started task =>
        cases task with
        | versionMask mask => exact ⟨mask, rfl⟩
        | _ => exact absurd rfl sets
    | _ => exact absurd rfl sets
  have received : PoolLine.versionMask mask ∈ (scriptParty sha256 address).received link.near :=
    Semantics.mem_received.mpr ⟨me, _, member, rfl⟩
  obtain ⟨other, event, _, sent⟩ := Semantics.mem_sent.mp (reached.in_order.subset received)
  obtain ⟨line, same, _⟩ := ClientEvent.sends_eq sent
  cases same

/-- The response of an exchange is the line that the connection wrote for its request. -/
theorem answers_of_exchange (reached : link.Reachable) {me promise : ℕ} {fields : Fields} {line : Line}
    {past : ScriptHistory} (exchanged : exchange promise fields line ++ past <:+ own me link.script.trace) :
    ∃ other history, .issued (.writeSocket line) :: history <:+ own other link.connection.trace ∧
      .started (.line (some (.object fields))) ∈ history ∧ Answers (stratumDecoder isPublicKey) history line := by
  have accepted := ((scriptContract_proved sha256 address).reachable (script_reached reached)).2
  obtain ⟨id, numbered, keyed, index, arrived⟩ := correlated_of_exchange accepted exchanged
  obtain ⟨other, written⟩ := written_of_received reached arrived
  obtain ⟨history, suffix, answers⟩ := Reachable.answersOwn (connection_reached reached) written
  refine ⟨other, history, suffix, ?_, answers⟩
  -- The line has the id of a request of the script, and no other request of the script has it.
  have carried : ∃ carriedId, line.id? = some carriedId := by
    cases present : line.id? with
    | some carriedId => exact ⟨carriedId, rfl⟩
    | none =>
        rw [lineKey, present] at keyed
        exact absurd (Option.some.inj keyed).symm (toString_ne_null id)
  obtain ⟨carriedId, carried⟩ := carried
  obtain ⟨request, started, same⟩ := answers.carries_id carried
  have received : (other, .started (.line (some request))) ∈ link.connection.trace :=
    mem_own.mp (suffix.subset (List.mem_cons_of_mem _ started))
  obtain ⟨sender, message, object, sent⟩ := sent_of_received reached received
  cases object
  have requested : (me, .called (.send fields) ()) ∈ link.script.trace :=
    mem_own.mp (exchanged.subset (by simp [exchange]))
  obtain ⟨earlier, _, _, messageNumber, numbered', _⟩ := accepted.of_mem sent
  have key : lineKey line = some (toString messageNumber) := by
    rw [lineKey, carried, Option.getD_some, same]
    change (messageId message).propertyKey = _
    rw [numbered']
    exact Json.propertyKey_ofNat messageNumber
  obtain rfl := toString_injective (Option.some.inj (key.symm.trans keyed))
  rw [(request_of_id accepted requested sent numbered numbered').2]
  exact started

end SessionLink

/-- The pool answers the requests of the script. Each response that a thread of the script awaits is the line
that the connection wrote while it handled the very request of this thread, and the line has its reason in what
this handler had learned. -/
def AnswersScript (sha256 : Bytes → Bytes) {address : String} {isPublicKey : String → Bool}
    (link : SessionLink sha256 address isPublicKey) : Prop :=
  ∀ me promise line, (me, .answered (.response promise) line) ∈ link.script.trace → ∃ fields past,
    exchange promise fields line ++ past <:+ own me link.script.trace ∧ ∃ other history,
      .issued (.writeSocket line) :: history <:+ own other link.connection.trace ∧
        .started (.line (some (.object fields))) ∈ history ∧ Answers (stratumDecoder isPublicKey) history line

/-- Whatever the two parties do, and whenever their lines arrive, the pool answers the requests of the script. -/
theorem link_answers_script (sha256 : Bytes → Bytes) (address : String) (isPublicKey : String → Bool)
    {link : SessionLink sha256 address isPublicKey} (reached : link.Reachable) : AnswersScript sha256 link := by
  intro me promise line member
  have accepted := ((scriptContract_proved sha256 address).reachable (SessionLink.script_reached reached)).2
  obtain ⟨fields, past, exchanged⟩ := exchange_of_answered accepted member
  exact ⟨fields, past, exchanged, SessionLink.answers_of_exchange reached exchanged⟩

/-- The script runs to its next await, or the pool handles a line or a template to its end. -/
inductive Turn where
  | script (move : Move ScriptTask)
  | pool (task : ClientTask)

abbrev AcceptingLink := SessionLink id "miner" fun _ => true

/-- Templates wait for a subscription to the job stream. -/
def ClientTask.isReady (trace : ClientTrace) : ClientTask → Bool
  | .newMiningJob _ => trace.any fun pair => ClientEvent.subscribesJobs pair.2
  | _ => true

theorem ClientTask.mayStart_of_isReady {trace : ClientTrace} {task : ClientTask} (ready : task.isReady trace = true) :
    task.mayStart trace := by
  cases task with
  | newMiningJob template =>
      obtain ⟨⟨me, event⟩, member, subscribes⟩ := List.any_eq_true.mp ready
      change ClientEvent.subscribesJobs event = true at subscribes
      unfold ClientEvent.subscribesJobs at subscribes
      split at subscribes
      · exact ⟨me, member⟩
      · cases subscribes
  | _ => trivial

namespace AcceptingLink

def turn (link : AcceptingLink) : Turn → AcceptingLink
  | .script move => { link with near := link.script.move (scriptSemantics id "miner") acceptingPool move }
  | .pool task => { link with
      far := link.connection.after (clientSemantics id (stratumDecoder fun _ => true)) servedPool task }

/-- Each party has received only what the other one has sent. -/
def inOrder (link : AcceptingLink) : Bool :=
  decide ((scriptParty id "miner").received link.near <:+ (connectionParty id fun _ => true).sent link.far) &&
    decide ((connectionParty id fun _ => true).received link.far <:+ (scriptParty id "miner").sent link.near)

/-- No answer of the link needs a proof. -/
def isFree (link : AcceptingLink) : Bool :=
  link.script.trace.all (fun pair => decide (pair.2.Calls fun call => call.isFree = true)) &&
    link.connection.trace.all fun pair => decide (pair.2.Asks fun call => call.awaitsPromise = false)

def allows (link : AcceptingLink) : Turn → Bool
  | .script move => answersSettled link.script move
  | .pool task => task.isReady link.connection.trace

def allowsAll : AcceptingLink → List Turn → Bool
  | _, [] => true
  | link, next :: turns => link.allows next && (link.turn next).inOrder && (link.turn next).isFree &&
      (link.turn next).allowsAll turns

theorem reachable_turn {link : AcceptingLink} {next : Turn} (reached : link.Reachable)
    (allowed : link.allows next = true) (inOrder : (link.turn next).inOrder = true)
    (free : (link.turn next).isFree = true) : (link.turn next).Reachable := by
  obtain ⟨near, far⟩ := Bool.and_eq_true_iff.mp inOrder
  obtain ⟨called, asked⟩ := Bool.and_eq_true_iff.mp free
  cases next with
  | script move =>
      refine reached.near_steps ?_ (of_decide_eq_true near)
      apply System.steps_move admits_of_isFree (lawful_of_answersSettled allowed)
      exact fun pair member => of_decide_eq_true (List.all_eq_true.mp called pair member)
  | pool task =>
      refine reached.far_steps ?_ (of_decide_eq_true far)
      apply System.steps_after servedPool_admitted (ClientTask.mayStart_of_isReady allowed)
      exact fun pair member => of_decide_eq_true (List.all_eq_true.mp asked pair member)

theorem reachable_turns {link : AcceptingLink} (reached : link.Reachable) {turns : List Turn} (allowed : link.allowsAll turns = true) :
    (turns.foldl turn link).Reachable := by
  induction turns generalizing link with
  | nil => exact reached
  | cons first turns ih =>
      simp only [allowsAll, Bool.and_eq_true] at allowed
      obtain ⟨⟨⟨allowed, inOrder⟩, free⟩, rest⟩ := allowed
      exact ih (reachable_turn reached allowed inOrder free) rest

end AcceptingLink

/-- The script opens its session at the pool, mines the first job, and submits it. -/
def acceptedTurns : List Turn :=
  [.script (.start .connected), .pool (.line (some (.object (subscribeMessage 1)))),
    .script (.start (.data (acceptingPool (.response 0)))), .script (.resume 0),
    .pool (.line (some (.object (configureMessage "1fffe000" 2)))),
    .script (.start (.data (acceptingPool (.response 1)))), .script (.resume 0),
    .pool (.line (some (.object (authorizeMessage "miner" 3)))), .pool (.newMiningJob openedJobs.2),
    .script (.start (.data (acceptingPool (.response 2)))), .script (.resume 0),
    .script (.start (.data (.setDifficulty (calculateNetworkDifficulty 100)))),
    .script (.start (.data firstNotify)),
    .pool (.line (some (.object (createSubmitMessage "worker1" "2" "04030201" "0" "00000007" "6000" 4)))),
    .script (.start (.data (acceptingPool (.response 3)))), .script (.resume 5)]

def acceptedLink : AcceptingLink := acceptedTurns.foldl AcceptingLink.turn (Link.initial _ _)

theorem acceptedLink_reachable : acceptedLink.Reachable :=
  AcceptingLink.reachable_turns .refl (by decide +kernel)

/-- The script learns that its submit was accepted, and each of its responses is the pool's own answer. -/
theorem link_answers_script_accepted :
    (acceptedLink.script.trace.any fun pair => ScriptEvent.accepts pair.2) = true ∧ AnswersScript id acceptedLink :=
  ⟨by decide +kernel, link_answers_script _ _ _ acceptedLink_reachable⟩

end ComptoMiningPool
