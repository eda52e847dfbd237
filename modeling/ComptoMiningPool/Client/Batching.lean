import ComptoMiningPool.Async.Bursts
import ComptoMiningPool.Client.VersionGate

/-
This file compares the messages of a connection in batches with the same messages one by one. It proves
which batches keep the order of the messages.
-/

namespace ComptoMiningPool

open JavaScript Async

/-- The answers that each message of a connection receives. -/
abbrev ConnectionEnvironment := ℕ → ClientEnvironment

/-- The entity promise answers with its own result. -/
def connectionAnswers (environment : ConnectionEnvironment) (me : ℕ) (state : ClientState)
    (history : ClientHistory) : (call : ClientCall) → ClientAnswer call
  | .creatingEntity => match state.creatingEntity with
    | some (.settled result) => result
    | _ => .ok ()
  | call => environment me history call

/-- A pending promise answers nothing. -/
def promiseSettled (state : ClientState) : ClientCall → Prop
  | .creatingEntity => ∃ result, state.creatingEntity = some (.settled result)
  | _ => True

/-- The lines of one connection, each with the answers of its environment. -/
def lineSemantics (sha256 : Bytes → Bytes) (environment : ConnectionEnvironment) :
    Semantics ClientState ClientAnswer Thrown Unit ClientTask where
  program := ClientTask.program sha256
  mayStart _ _ task := ∃ message, task = .line message
  admits me state trace call answer :=
    answer = connectionAnswers environment me state (own me trace) call ∧ promiseSettled state call
  disturbs _ _ := False

/-- A response names the id of its message. An error adds its code. -/
def Line.responds? : Line → Option (Json × Option StratumErrorCode)
  | .response id _ => some (id, none)
  | .error id code _ _ => some (id, some code)
  | .setDifficulty _ => none
  | .notify _ => none

def ClientEvent.responds? : ClientEvent → Option (Json × Option StratumErrorCode)
  | .answered (.writeSocket line) (.ok _) => line.responds?
  | _ => none

def ClientEvent.endsConnection : ClientEvent → Bool
  | .called .endSocket _ => true
  | .called .destroySocket _ => true
  | _ => false

/-- The responses to a message, and whether it ended the connection. -/
def messageOutcome (history : ClientHistory) : List (Json × Option StratumErrorCode) × Bool :=
  (history.filterMap ClientEvent.responds?, history.any ClientEvent.endsConnection)

abbrev ClientSystem := System ClientState ClientAnswer Thrown Unit ClientTask

/-- The outcomes of the messages in the order of their arrival. -/
def messageOutcomes (system : ClientSystem) : List (List (Json × Option StratumErrorCode) × Bool) :=
  (List.range system.threads.length).map fun me => messageOutcome (own me system.trace)

/-- The fields of the session, without the flags of the socket. -/
def sessionFields (state : ClientState) : ClientState :=
  { state with destroyed := false, writableEnded := false }

/-- Two systems agree on the outcome of each message and on the fields of the session. -/
structure SameEffects (system reference : ClientSystem) : Prop where
  outcomes : messageOutcomes system = messageOutcomes reference
  fields : sessionFields system.state = sessionFields reference.state

/-- The messages of bursts have the effects of the same messages one by one. -/
def EffectsInOrder (sha256 : Bytes → Bytes) (environment : ConnectionEnvironment)
    (bursts : List (List (Option Json))) : Prop :=
  ∀ system, Delivers (lineSemantics sha256 environment) {} (bursts.map (List.map ClientTask.line)) system →
    system.Idle → SameEffects system (System.oneByOne (lineSemantics sha256 environment)
      (connectionAnswers environment) {} (bursts.flatten.map ClientTask.line))

theorem lineSemantics_answered (sha256 : Bytes → Bytes) (environment : ConnectionEnvironment) :
    (lineSemantics sha256 environment).AnsweredBy (connectionAnswers environment) :=
  fun _ _ _ _ _ admitted => admitted.1

theorem lineSemantics_within (sha256 : Bytes → Bytes) {environment : ConnectionEnvironment} {decoder : Decoder}
    (decodes : ∀ me, Decodes decoder (environment me)) :
    (lineSemantics sha256 environment).Within (clientSemantics sha256 decoder) where
  program := rfl
  mayStart := by
    rintro _ _ _ ⟨message, rfl⟩
    trivial
  admits := by
    rintro me state trace call answer ⟨rfl, settled⟩
    cases call with
    | validateSubscription fields => exact (decodes me).subscription _ _
    | validateConfiguration fields => exact (decodes me).configuration _ _
    | validateAuthorization fields => exact (decodes me).authorization _ _
    | validateSubmit fields => exact (decodes me).submit _ _
    | creatingEntity =>
        obtain ⟨result, isSettled⟩ := settled
        change state.creatingEntity = some (.settled (connectionAnswers environment me state _ .creatingEntity))
        simp only [connectionAnswers, isSettled]
    | _ => trivial
  disturbs := False.elim

/-- Delivered messages are an interleaving of the connection. -/
theorem delivers_reachable {sha256 : Bytes → Bytes} {environment : ConnectionEnvironment} {decoder : Decoder}
    (decodes : ∀ me, Decodes decoder (environment me)) {bursts : List (List ClientTask)} {system : ClientSystem}
    (delivers : Delivers (lineSemantics sha256 environment) {} bursts system) :
    Reachable (clientSemantics sha256 decoder) {} system :=
  delivers.reachable.within (lineSemantics_within sha256 decodes)

theorem effectsInOrder_of_single (sha256 : Bytes → Bytes) (environment : ConnectionEnvironment)
    {bursts : List (List (Option Json))} (single : ∀ burst ∈ bursts, burst.length ≤ 1) :
    EffectsInOrder sha256 environment bursts := by
  intro system delivers idle
  have whole := delivers.oneByOne_of_idle (lineSemantics_answered sha256 environment) (by
    intro burst member
    obtain ⟨lines, inside, rfl⟩ := List.mem_map.mp member
    rw [List.length_map]
    exact single lines inside) idle
  rw [whole, List.map_flatten]
  exact ⟨rfl, rfl⟩

/-- Every write succeeds, and no job is known. -/
def openEnvironment (isPublicKey : String → Bool) (_ : ℕ) (_ : ClientHistory) :
    (call : ClientCall) → ClientAnswer call
  | .validateSubscription fields => (stratumDecoder isPublicKey).subscription fields
  | .validateConfiguration fields => (stratumDecoder isPublicKey).configuration fields
  | .validateAuthorization fields => (stratumDecoder isPublicKey).authorization fields
  | .validateSubmit fields => (stratumDecoder isPublicKey).submit fields
  | .writeSocket _ => .ok ()
  | .now => (0 : ℕ)
  | .randomBytes => (0 : BitVec 32)
  | .configText _ default => default
  | .configNumber _ default => default
  | .insertClient _ => .ok ()
  | .deleteClient _ => .ok ()
  | .creatingEntity => .ok ()
  | .getJobById _ => none
  | .getJobTemplateById _ => none
  | .addJob template => MiningJob.ofTemplate "" template
  | .submitProof _ => .error .typeError
  | .endSocket => ()
  | .destroySocket => ()
  | .startDestroy => ()
  | .subscribeNewMiningJob => ()
  | .unsubscribe => ()
  | .assert _ _ => ()
  | .initializing => ()
  | .authorized _ => ()
  | .turn => ()

theorem openEnvironment_decodes (isPublicKey : String → Bool) (me : ℕ) :
    Decodes (stratumDecoder isPublicKey) (openEnvironment isPublicKey me) :=
  ⟨fun _ _ => rfl, fun _ _ => rfl, fun _ _ => rfl, fun _ _ => rfl⟩

/-- An object without a method is ignored. -/
def ignoredLine : Option Json := some (.object [])

def subscribeFields : Fields :=
  [("id", .number 1), ("method", .string "mining.subscribe"), ("params", .array [])]

def subscribeLine : Option Json := some (.object subscribeFields)

section Lines

variable {sha256 : Bytes → Bytes} {environment : ConnectionEnvironment}

theorem ignored_segment {me : ℕ} {state : ClientState} (unauthorized : state.clientAuthorization = none)
    (trace : ClientTrace) :
    Segment (lineSemantics sha256 environment) me (ClientTask.program sha256 (.line ignoredLine)) state trace
      (.waiting .turn fun _ => .done ()) state ((me, .issued .turn) :: trace) := by
  have idle : (state.clientSubscription.isSome && state.clientAuthorization.isSome &&
      !state.stratumInitialized) = false := by
    simp [unauthorized]
  apply Segment.read
  simp only [Program.bind, idle]
  exact .await

/-- A line that is no JSON ends the socket before its first await. -/
theorem garbage_segment {me : ℕ} {state : ClientState} (trace : ClientTrace) :
    Segment (lineSemantics sha256 environment) me (ClientTask.program sha256 (.line none)) state trace
      (.waiting .turn fun _ => .await .turn fun _ => .done ()) { state with writableEnded := true }
      ((me, .issued .turn) :: (me, .called .endSocket ()) :: trace) :=
  .call () ⟨rfl, trivial⟩ (.read (.store .await))

theorem turn_admitted (me : ℕ) (state : ClientState) (trace : ClientTrace) :
    ∃ answer, (lineSemantics sha256 environment).admits me state trace .turn answer :=
  ⟨(), rfl, trivial⟩

theorem other_admitted {me : ℕ} (state : ClientState) (trace : ClientTrace) (call : ClientCall)
    (other : call.awaitsPromise = false) : (lineSemantics sha256 environment).admits me state trace call
      (connectionAnswers environment me state (own me trace) call) := by
  refine ⟨rfl, ?_⟩
  cases call <;> trivial

def ignoredThread : Thread ClientState ClientAnswer Thrown Unit := .waiting .turn fun _ => .done ()

/-- Ignored lines start one after the other and wait for their turns. -/
theorem starts_ignored (count : ℕ) {state : ClientState} (unauthorized : state.clientAuthorization = none)
    (trace : ClientTrace) (threads : List (Thread ClientState ClientAnswer Thrown Unit)) :
    ∃ added : ClientTrace, (∀ pair ∈ added, threads.length ≤ pair.1) ∧
      Starts (lineSemantics sha256 environment) ((List.replicate count ignoredLine).map ClientTask.line)
        ⟨state, trace, threads⟩ ⟨state, added ++ trace, threads ++ List.replicate count ignoredThread⟩ := by
  induction count generalizing trace threads with
  | zero => exact ⟨[], by simp, by simpa using Starts.nil⟩
  | succ count ih =>
      have segment : Segment (lineSemantics sha256 environment) threads.length
          (ClientTask.program sha256 (.line ignoredLine)) state
          ((threads.length, .started (.line ignoredLine)) :: trace) ignoredThread state _ :=
        ignored_segment unauthorized _
      obtain ⟨added, others, starts⟩ := ih ((threads.length, .issued .turn) ::
        (threads.length, .started (.line ignoredLine)) :: trace) (threads ++ [ignoredThread])
      refine ⟨added ++ [(threads.length, .issued .turn),
        (threads.length, .started (.line ignoredLine))], ?_, ?_⟩
      · intro pair member
        rcases List.mem_append.mp member with member | member
        · have above := others pair member
          rw [List.length_append] at above
          omega
        · rcases List.mem_cons.mp member with rfl | member
          · exact le_rfl
          · rw [List.mem_singleton.mp member]
      · rw [List.append_assoc]
        have whole : Starts (lineSemantics sha256 environment)
            (.line ignoredLine :: (List.replicate count ignoredLine).map ClientTask.line)
            ⟨state, trace, threads⟩ _ :=
          .cons ⟨ignoredLine, rfl⟩ segment starts
        simpa [List.replicate_succ] using whole

theorem ignoredThreads_windDown (count : ℕ) :
    ∀ thread ∈ List.replicate count ignoredThread, thread.WindsDown .turn := by
  intro thread member
  rw [List.eq_of_mem_replicate member]
  exact .waiting fun _ => .done _

def ignoredBurst (count : ℕ) : List (Option Json) := List.replicate count ignoredLine

/-- A burst of ignored lines leaves the connection and the earlier messages as they are. -/
structure Ignores (before after : ClientSystem) (count : ℕ) : Prop where
  idle : after.Idle
  state : after.state = before.state
  length : after.threads.length = before.threads.length + count
  own : ∀ me < before.threads.length, own me after.trace = own me before.trace

theorem delivers_ignored {bursts : List (List ClientTask)} {system : ClientSystem}
    (delivers : Delivers (lineSemantics sha256 environment) {} bursts system) (idle : system.Idle)
    (unauthorized : system.state.clientAuthorization = none) (count : ℕ) :
    ∃ after, Delivers (lineSemantics sha256 environment) {} (bursts ++ [(ignoredBurst count).map .line]) after ∧
      Ignores system after count := by
  obtain ⟨added, others, starts⟩ :=
    @starts_ignored sha256 environment count _ unauthorized system.trace system.threads
  obtain ⟨rest, later, length, ended, others', steps⟩ :=
    System.becomes_idle (@turn_admitted sha256 environment) idle (ignoredThreads_windDown count)
  refine ⟨_, (delivers.event idle starts).resumeAll steps, ?_, rfl, ?_, ?_⟩
  · exact List.forall_mem_append.mpr ⟨idle, ended⟩
  · simp [length]
  · intro me below
    have distinct : ∀ pair ∈ later ++ added, pair.1 ≠ me := by
      intro pair member
      rcases List.mem_append.mp member with member | member
      · exact (lt_of_lt_of_le below (others' pair member)).ne'
      · exact (lt_of_lt_of_le below (others pair member)).ne'
    rw [← List.append_assoc]
    exact own_append_of_ne distinct

theorem delivers_ignoredBursts {bursts : List (List ClientTask)} {system : ClientSystem}
    (delivers : Delivers (lineSemantics sha256 environment) {} bursts system) (idle : system.Idle)
    (unauthorized : system.state.clientAuthorization = none) (sizes : List ℕ) :
    ∃ after, Delivers (lineSemantics sha256 environment) {}
        (bursts ++ (sizes.map ignoredBurst).map (List.map .line)) after ∧
      Ignores system after sizes.sum := by
  induction sizes generalizing bursts system with
  | nil => exact ⟨system, by simpa using delivers, idle, rfl, rfl, fun _ _ => rfl⟩
  | cons count sizes ih =>
      obtain ⟨middle, delivered, first⟩ := delivers_ignored delivers idle unauthorized count
      obtain ⟨after, delivered', rest⟩ := ih delivered first.idle (by rw [first.state]; exact unauthorized)
      refine ⟨after, by simpa using delivered', rest.idle, rest.state.trans first.state, ?_, ?_⟩
      · rw [rest.length, first.length, List.sum_cons]
        omega
      · intro me below
        rw [rest.own me (by rw [first.length]; omega), first.own me below]

end Lines

def subscribeAnswer : Except Thrown (Validated SubscriptionMessage) := SubscriptionMessage.decode subscribeFields

def ClientEvent.asksPromise : ClientEvent → Bool
  | .called call _ => call.awaitsPromise
  | .answered call _ => call.awaitsPromise
  | _ => false

theorem asks_of_all {history : ClientHistory} (none : history.any ClientEvent.asksPromise = false) :
    ∀ event ∈ history, event.Asks fun call => call.awaitsPromise = false := by
  intro event member
  have other := List.any_eq_false.mp none event member
  cases event with
  | called call answer => exact Bool.eq_false_iff.mpr other
  | answered call answer => exact Bool.eq_false_iff.mpr other
  | started label => trivial
  | issued call => trivial

/-- A subscription that finds its socket ended is stored and not answered. -/
theorem subscribe_program (sha256 : Bytes → Bytes) :
    ∃ rest : Except Thrown (Validated SubscriptionMessage) → ClientProgram Unit,
      ClientTask.program sha256 (.line subscribeLine) = .await (.validateSubscription subscribeFields) rest ∧
      ∀ isPublicKey me,
        let run := (rest subscribeAnswer).solo (connectionAnswers (openEnvironment isPublicKey) me)
          { writableEnded := true } [.answered (.validateSubscription subscribeFields) subscribeAnswer,
            .issued (.validateSubscription subscribeFields), .started (.line subscribeLine)]
        (messageOutcome run.history).1 = [] ∧ run.state.clientAuthorization = none ∧
          run.history.any ClientEvent.asksPromise = false :=
  ⟨_, rfl, fun _ _ => ⟨rfl, rfl, rfl⟩⟩

section Overlap

variable {sha256 : Bytes → Bytes} {isPublicKey : String → Bool}
  {rest : Except Thrown (Validated SubscriptionMessage) → ClientProgram Unit}

/-- A subscription waits for its validation while the line after it ends the socket. -/
theorem starts_overlap
    (whole : ClientTask.program sha256 (.line subscribeLine) = .await (.validateSubscription subscribeFields) rest)
    (count : ℕ) {trace : ClientTrace} {threads : List (Thread ClientState ClientAnswer Thrown Unit)}
    (fresh : own threads.length trace = []) :
    ∃ full, own threads.length full =
        [.issued (.validateSubscription subscribeFields), .started (.line subscribeLine)] ∧
      Starts (lineSemantics sha256 (openEnvironment isPublicKey))
        ((subscribeLine :: none :: ignoredBurst count).map .line) ⟨{}, trace, threads⟩
        ⟨{ writableEnded := true }, full, threads ++ .waiting (.validateSubscription subscribeFields) rest ::
          (.waiting .turn fun _ => .await .turn fun _ => .done ()) :: List.replicate count ignoredThread⟩ := by
  let rules := lineSemantics sha256 (openEnvironment isPublicKey)
  let subscribing : Thread ClientState ClientAnswer Thrown Unit :=
    .waiting (.validateSubscription subscribeFields) rest
  have subscribes : Segment rules threads.length (ClientTask.program sha256 (.line subscribeLine)) {}
      ((threads.length, .started (.line subscribeLine)) :: trace) subscribing {}
      ((threads.length, .issued (.validateSubscription subscribeFields)) ::
        (threads.length, .started (.line subscribeLine)) :: trace) := by
    rw [whole]
    exact .await
  have ends : Segment rules (threads ++ [subscribing]).length (ClientTask.program sha256 (.line none)) {}
      (((threads ++ [subscribing]).length, .started (.line none)) ::
        (threads.length, .issued (.validateSubscription subscribeFields)) ::
        (threads.length, .started (.line subscribeLine)) :: trace) _ { writableEnded := true } _ :=
    garbage_segment _
  obtain ⟨added, others, starts⟩ := @starts_ignored sha256 (openEnvironment isPublicKey) count
    { writableEnded := true } rfl _ (threads ++ [subscribing] ++ [_])
  have started : Starts rules ((subscribeLine :: none :: ignoredBurst count).map .line) ⟨{}, trace, threads⟩ _ :=
    .cons ⟨subscribeLine, rfl⟩ subscribes (.cons ⟨none, rfl⟩ ends starts)
  simp only [List.append_assoc, List.singleton_append] at started
  refine ⟨_, ?_, started⟩
  rw [own_append_of_ne]
  · have later : (threads ++ [subscribing]).length ≠ threads.length := by simp
    rw [own_cons_of_ne later, own_cons_of_ne later, own_cons_of_ne later, own_cons_self, own_cons_self, fresh]
  · intro pair member
    have above := others pair member
    simp only [List.length_append, List.length_singleton] at above
    omega

/-- A burst whose second line ends the socket loses the response to its first line. -/
theorem delivers_overlap {bursts : List (List ClientTask)} {system : ClientSystem}
    (delivers : Delivers (lineSemantics sha256 (openEnvironment isPublicKey)) {} bursts system)
    (idle : system.Idle) (unused : system.state = {}) (count : ℕ) :
    ∃ after, Delivers (lineSemantics sha256 (openEnvironment isPublicKey)) {}
        (bursts ++ [(subscribeLine :: none :: ignoredBurst count).map .line]) after ∧
      after.Idle ∧ after.state.clientAuthorization = none ∧
      system.threads.length < after.threads.length ∧
      (messageOutcome (own system.threads.length after.trace)).1 = [] := by
  obtain ⟨state, trace, threads⟩ := system
  obtain rfl : state = {} := unused
  obtain ⟨rest, whole, alone⟩ := subscribe_program sha256
  obtain ⟨unanswered, unauthorized, asked⟩ := alone isPublicKey threads.length
  have fresh : own threads.length trace = [] := by
    apply List.filterMap_eq_nil_iff.mpr
    intro pair member
    exact if_neg (delivers.reachable.index_lt pair member).ne
  obtain ⟨full, mine, starts⟩ := @starts_overlap sha256 isPublicKey rest whole count trace threads fresh
  have winds : ∀ thread ∈ (.waiting .turn fun _ => .await .turn fun _ => .done ()) ::
      List.replicate count ignoredThread, Thread.WindsDown ClientCall.turn thread := by
    intro thread member
    rcases List.mem_cons.mp member with rfl | member
    · exact .waiting fun _ => .await fun _ => .done _
    · exact ignoredThreads_windDown count thread member
  -- The subscription goes on alone to its end, and then the other lines take their turns.
  obtain ⟨after, delivered, settled, longer, state, history⟩ := (delivers.event idle starts).finishes
    (@other_admitted sha256 (openEnvironment isPublicKey)) (@turn_admitted sha256 (openEnvironment isPublicKey))
    idle winds (by
      rw [mine]
      exact asks_of_all asked)
  rw [mine] at state history
  refine ⟨after, delivered, settled, ?_, longer, ?_⟩
  · rw [state]
    exact unauthorized
  · rw [history]
    exact unanswered

theorem getElem?_messageOutcomes {system : ClientSystem} {me : ℕ} (inside : me < system.threads.length) :
    (messageOutcomes system)[me]? = some (messageOutcome (own me system.trace)) := by
  simp [messageOutcomes, inside]

/-- A subscription that runs alone on an unused connection is answered once. -/
theorem subscribe_answered (isPublicKey : String → Bool) (me : ℕ) :
    (messageOutcome ((ClientTask.program sha256 (.line subscribeLine)).solo
      (connectionAnswers (openEnvironment isPublicKey) me) {} [.started (.line subscribeLine)]).history).1.length =
        1 := rfl

/-- Ignored lines leave an unused connection unused. -/
theorem oneByOne_ignored (isPublicKey : String → Bool) (lines : List (Option Json))
    (ignored : ∀ line ∈ lines, line = ignoredLine) :
    (System.oneByOne (lineSemantics sha256 (openEnvironment isPublicKey))
      (connectionAnswers (openEnvironment isPublicKey)) {} (lines.map ClientTask.line)).state = {} := by
  induction lines using List.reverseRecOn with
  | nil => rfl
  | append_singleton lines line ih =>
      have last : line = ignoredLine := ignored line (by simp)
      rw [List.map_append, List.map_singleton, System.oneByOne_append, System.alone,
        ih fun other member => ignored other (List.mem_append_left _ member), last]
      rfl

/-- Some burst with two messages has other effects than the same messages one by one. -/
theorem not_effectsInOrder (front : List ℕ) (count : ℕ) (back : List ℕ) :
    ¬ EffectsInOrder sha256 (openEnvironment isPublicKey)
      (front.map ignoredBurst ++ (subscribeLine :: none :: ignoredBurst count) :: back.map ignoredBurst) := by
  intro inOrder
  obtain ⟨before, delivered, ignores⟩ := delivers_ignoredBursts
    (@Delivers.nil _ _ _ _ _ _ (lineSemantics sha256 (openEnvironment isPublicKey)) {}) (by
      intro thread member
      cases member) rfl front
  obtain ⟨overlapped, delivered', idle, unauthorized, longer, unanswered⟩ :=
    delivers_overlap delivered ignores.idle ignores.state count
  obtain ⟨after, delivered'', ignores'⟩ := delivers_ignoredBursts delivered' idle unauthorized back
  have same := inOrder after (by simpa using delivered'') ignores'.idle
  have counted : before.threads.length = front.sum := by
    rw [ignores.length]
    exact Nat.zero_add _
  have inside : front.sum < after.threads.length := by
    rw [ignores'.length, ← counted]
    omega
  have silent : (messageOutcome (own front.sum after.trace)).1 = [] := by
    rw [← counted, ignores'.own _ longer]
    exact unanswered
  -- One by one, the subscription comes after ignored lines and is answered.
  let earlier : List (Option Json) := (front.map ignoredBurst).flatten
  have size : (earlier.map ClientTask.line).length = front.sum := by
    simp [earlier, ignoredBurst, List.length_flatten, Function.comp_def]
  have ignored : ∀ line ∈ earlier, line = ignoredLine := by
    intro line member
    obtain ⟨burst, burstMember, lineMember⟩ := List.mem_flatten.mp member
    obtain ⟨length, _, rfl⟩ := List.mem_map.mp burstMember
    exact List.eq_of_mem_replicate lineMember
  have split : (front.map ignoredBurst ++
      (subscribeLine :: none :: ignoredBurst count) :: back.map ignoredBurst).flatten.map ClientTask.line =
        earlier.map ClientTask.line ++ .line subscribeLine ::
          ((none :: ignoredBurst count) ++ (back.map ignoredBurst).flatten).map ClientTask.line := by
    simp [earlier]
  have heard := @System.own_oneByOne _ _ _ _ _ _ (lineSemantics sha256 (openEnvironment isPublicKey))
    (connectionAnswers (openEnvironment isPublicKey)) {} (earlier.map ClientTask.line) (.line subscribeLine)
    (((none :: ignoredBurst count) ++ (back.map ignoredBurst).flatten).map ClientTask.line)
  simp only [oneByOne_ignored isPublicKey earlier ignored, size] at heard
  have reached := congrArg (fun outcomes => outcomes[front.sum]?) same.outcomes
  simp only [split] at reached
  rw [getElem?_messageOutcomes inside, getElem?_messageOutcomes (by
    rw [System.length_oneByOne, List.length_append, size, List.length_cons]
    omega), heard] at reached
  have outcome := congrArg (fun outcome => outcome.1.length) (Option.some.inj reached)
  simp only [silent, List.length_nil] at outcome
  exact absurd (outcome.trans (@subscribe_answered sha256 isPublicKey front.sum)) (by decide)

end Overlap

def authorizeLine : Option Json :=
  some (.object [("id", .number 2), ("method", .string "mining.authorize"),
    ("params", .array [.string "miner.worker1", .null])])

/-- A client that does not wait for the responses. -/
def pipelinedLines : List (Option Json) := [subscribeLine, authorizeLine, some (.object (openingSubmit none))]

/-- The three lines arrive in one event, and their handlers take turns. -/
def pipelinedSystem : ClientSystem :=
  let environment := openEnvironment fun _ => true
  let move := System.move (lineSemantics id environment) (environment 0 [])
  (((List.replicate 12 [0, 1, 2]).flatten).map Move.resume).foldl move
    (((pipelinedLines.map ClientTask.line).map Move.start).foldl move ⟨{}, [], []⟩)

theorem openEnvironment_admitted (me : ℕ) (state : ClientState) (trace : ClientTrace) (call : ClientCall)
    (other : call.awaitsPromise = false) :
    (lineSemantics id (openEnvironment fun _ => true)).admits me state trace call
      (openEnvironment (fun _ => true) 0 [] call) := by
  cases call <;> first | exact ⟨rfl, trivial⟩ | cases other

theorem pipelinedSystem_delivers :
    Delivers (lineSemantics id (openEnvironment fun _ => true)) {} [pipelinedLines.map ClientTask.line]
      pipelinedSystem := by
  have quiet : ∀ pair ∈ pipelinedSystem.trace, pair.2.Asks fun call => call.awaitsPromise = false := by
    decide +kernel
  have early : ∀ pair ∈ (((pipelinedLines.map ClientTask.line).map Move.start).foldl
      (System.move (lineSemantics id (openEnvironment fun _ => true)) (openEnvironment (fun _ => true) 0 []))
      ⟨{}, [], []⟩).trace, pair.2.Asks fun call => call.awaitsPromise = false := by
    decide +kernel
  have starts := Starts.of_moves openEnvironment_admitted (by
    intro task member state trace
    obtain ⟨line, _, rfl⟩ := List.mem_map.mp member
    exact ⟨line, rfl⟩) _ early
  have resumes := Resumes.of_moves openEnvironment_admitted _ _ quiet
  exact (Delivers.event .nil (fun _ member => nomatch member) starts).resumeAll resumes

theorem pipelinedSystem_idle : pipelinedSystem.Idle := by
  have ended : pipelinedSystem.threads.all (fun thread => match thread with
      | .ended _ => true
      | .waiting _ _ => false) = true := by
    decide +kernel
  intro thread member
  have isEnded := List.all_eq_true.mp ended thread member
  cases thread with
  | ended result => exact ⟨result, rfl⟩
  | waiting request next => cases isEnded

end ComptoMiningPool
