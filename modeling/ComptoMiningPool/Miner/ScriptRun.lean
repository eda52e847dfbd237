import ComptoMiningPool.Async.Frame
import ComptoMiningPool.Async.Schedule
import ComptoMiningPool.Async.Threads
import ComptoMiningPool.Miner.Script

/-
This file proves what every run of the client script keeps: the ids of its requests, the lines that settle its
promises, and the session that its work is made from.
-/

namespace ComptoMiningPool.StratumClient

open JavaScript Async

/-- The values of a session that the responses of the pool replace. -/
structure Session where
  versionRollingMask : String := "1fffe000"
  extraNonce2Size : Number := 4
  sessionId : String := "DEADBEEF"

def MinerState.session (state : MinerState) : Session :=
  ⟨state.versionRollingMask, state.extraNonce2Size, state.sessionId⟩

namespace Session

def subscribe (session : Session) (subResponse : Line) : Session :=
  match parseSubscribeResponse subResponse with
  | .ok (sessionId, extraNonce2Size) =>
      { session with sessionId := sessionId, extraNonce2Size := extraNonce2Size }
  | .error _ => session

def adopt (session : Session) (result : Json) : Session :=
  match Value.field (some result) "version-rolling.mask" with
  | .ok (some (.string text)) =>
      if text.toLower ≠ "" then { session with versionRollingMask := text.toLower } else session
  | _ => session

def configure (session : Session) (cfgResponse : Line) : Session :=
  match parseConfigureResponse cfgResponse with
  | .ok result => session.adopt result
  | .error _ => session

/-- The first response subscribes the session, and the second one configures it. -/
def ofResponses : List Line → Session
  | [] => {}
  | [subResponse] => ({} : Session).subscribe subResponse
  | subResponse :: cfgResponse :: _ => (({} : Session).subscribe subResponse).configure cfgResponse

end Session

namespace ScriptEvent

def response? : ScriptEvent → Option Line
  | .answered (.response _) line => some line
  | _ => none

def awaited? : ScriptEvent → Option ℕ
  | .issued (.response promise) => some promise
  | _ => none

def setsMask : ScriptEvent → Bool
  | .started (.versionMask _) => true
  | _ => false

end ScriptEvent

/-- The responses that a thread has awaited, oldest first. -/
def responses (history : ScriptHistory) : List Line := (history.filterMap ScriptEvent.response?).reverse

/-- The promises that the threads await or have awaited, newest first. -/
def awaited (trace : ScriptTrace) : List ℕ := trace.filterMap fun pair => ScriptEvent.awaited? pair.2

/-- No line has set the mask. -/
def Unmasked (trace : ScriptTrace) : Prop := ∀ pair ∈ trace, ScriptEvent.setsMask pair.2 = false

/-- The session comes from the responses of the thread that opened it. -/
structure HoldsSession (session : Session) (trace : ScriptTrace) : Prop where
  opened : Unmasked trace → ∀ me, (me, .started .connected) ∈ trace →
    session = Session.ofResponses (responses (own me trace))
  unopened : Unmasked trace → (∀ me, (me, .started .connected) ∉ trace) → session = {}

/-- The promise waits for the response to the request that went out just before. -/
def Registered (trace : ScriptTrace) (promise : ℕ) (fields : Fields) : Prop :=
  ∃ me earlier, (me, .issued (.response promise)) :: (me, .called (.send fields) ()) :: earlier <:+ trace

/-- The message has the id of the counter. -/
def Numbered (fields : Fields) (id : ℕ) : Prop := messageId fields = .number (.ofNat id)

/-- The line has arrived, and it carries the id of the request that the promise waits for. -/
def Settles (trace : ScriptTrace) (promise : ℕ) (line : Line) : Prop :=
  ∃ fields id, Registered trace promise fields ∧ Numbered fields id ∧ lineKey line = some (toString id) ∧
    ∃ me, (me, .started (.data line)) ∈ trace

/-- The ids, the promises, and the thread that opened the session. -/
structure ScriptCore (state : ScriptState) (trace : ScriptTrace) : Prop where
  ids : ∀ me fields, (me, .called (.send fields) ()) ∈ trace → ∃ id < state.nextId, Numbered fields id
  promised : ∀ promise ∈ awaited trace, promise < state.promises
  distinct : (awaited trace).Nodup
  pending : ∀ key promise, state.pending key = some promise →
    ∃ fields id, Registered trace promise fields ∧ Numbered fields id ∧ key = toString id
  settled : ∀ promise line, state.settled promise = some line → Settles trace promise line
  single : ∀ first second, (first, .started .connected) ∈ trace → (second, .started .connected) ∈ trace →
    first = second

structure ScriptInvariant (state : ScriptState) (trace : ScriptTrace) : Prop extends ScriptCore state trace where
  session : HoldsSession state.session trace

/-- The work of a notify line is made from the session. -/
structure Mines (sha256 : Bytes → Bytes) (session : Session) (params : MiningNotify) (extraNonce2 : String)
    (work : MiningWork) : Prop where
  random : ∃ random : BitVec 32, hexLEFromNumber random.toNat session.extraNonce2Size = .ok extraNonce2
  pubkey : ∃ first rest, params.merkleBranch = first :: rest ∧
    ((Bytes.ofHex first).length = 32 → work.pubkey = Bytes.ofHex first)
  recentBlockHash : swapWords (Bytes.ofHex params.prevHash.toLower).reverse = .ok work.recentBlockHash
  extraData : work.extraData = doubleSHA256 sha256
    (Bytes.ofHex (params.coinbasePart1 ++ session.sessionId ++ extraNonce2 ++ params.coinbasePart2))
  version : work.version = (applyVersionRolling params.version.toLower session.versionRollingMask).2
  timestamp : work.timestamp = parseHex params.timestamp

/-- The submit of mined work. -/
def submitOf (session : Session) (params : MiningNotify) (extraNonce2 : String) (nonce : BitVec 32) (id : ℕ) :
    Fields :=
  createSubmitMessage "worker1" params.jobId extraNonce2 params.timestamp (padStart 8 (hexText nonce.toNat))
    (int32Text (applyVersionRolling params.version.toLower session.versionRollingMask).1) id

/-- The events of one request and its response, newest first. -/
def exchange (promise : ℕ) (fields : Fields) (line : Line) : ScriptHistory :=
  [.answered (.response promise) line, .issued (.response promise), .called (.send fields) ()]

def subscribeMessage (id : ℕ) : Fields := createSubscribeMessage "ComptoMiner/0.1" .null id

def configureMessage (mask : String) (id : ℕ) : Fields :=
  createConfigureMessage [.string "version-rolling"]
    [("version-rolling.mask", .string mask), ("version-rolling.min-bit-count", .number 2)] id

def authorizeMessage (address : String) (id : ℕ) : Fields := createAuthorizeMessage (address ++ ".worker1") "x" id

/-- The session has been subscribed by its first exchange. -/
structure Subscribed (history : ScriptHistory) (subResponse : Line) : Prop where
  exchanged : ∃ promise id, history = exchange promise (subscribeMessage id) subResponse ++ [.started .connected]
  parsed : ∃ subscription, parseSubscribeResponse subResponse = .ok subscription

/-- The session has been configured by its second exchange. -/
structure Configured (history : ScriptHistory) (subResponse cfgResponse : Line) : Prop where
  exchanged : ∃ promise mask id earlier, history = exchange promise (configureMessage mask id) cfgResponse ++ earlier ∧
    Subscribed earlier subResponse
  parsed : ∃ result, parseConfigureResponse cfgResponse = .ok result

/-- The session sends its three requests in order, and each other thread submits the work that it has mined. -/
inductive Sends (sha256 : Bytes → Bytes) (address : String) (trace : ScriptTrace) (me : ℕ) : Fields → Prop where
  | subscribe (id : ℕ) (opened : own me trace = [.started .connected]) :
      Sends sha256 address trace me (subscribeMessage id)
  | configure {session : Session} (id : ℕ) {subResponse : Line} (holds : HoldsSession session trace)
      (subscribed : Subscribed (own me trace) subResponse) :
      Sends sha256 address trace me (configureMessage session.versionRollingMask id)
  | authorize (id : ℕ) {subResponse cfgResponse : Line}
      (configured : Configured (own me trace) subResponse cfgResponse) :
      Sends sha256 address trace me (authorizeMessage address id)
  | submit {session : Session} {params : MiningNotify} {extraNonce2 : String} {work : MiningWork}
      {nonce : BitVec 32} {past : ScriptHistory} (id : ℕ)
      (mined : own me trace = .called (.mine work) (.ok nonce) :: past)
      (notified : .started (.data (.notify params)) ∈ past) (holds : HoldsSession session trace)
      (mines : Mines sha256 session params extraNonce2 work) :
      Sends sha256 address trace me (submitOf session params extraNonce2 nonce id)

/-- The ids grow, each promise is awaited by the thread of its request, and each response carries the id of its
request. A thread mines the job of its own line, and it logs a submit as its response says. -/
def scriptMonitor (sha256 : Bytes → Bytes) (address : String) (trace : ScriptTrace) (me : ℕ) : ScriptEvent → Prop
  | .called (.send fields) _ => Sends sha256 address trace me fields ∧ ∃ id, Numbered fields id ∧
      ∀ other earlier, (other, .called (.send earlier) ()) ∈ trace → ∃ smaller < id, Numbered earlier smaller
  | .issued (.response promise) => promise ∉ awaited trace ∧
      ∃ fields, trace.head? = some (me, .called (.send fields) ())
  | .answered (.response promise) line => ∃ fields id past,
      own me trace = .issued (.response promise) :: .called (.send fields) () :: past ∧ Numbered fields id ∧
        lineKey line = some (toString id) ∧ ∃ other, (other, .started (.data line)) ∈ trace
  | .called (.submitAccepted accepted) _ => ∃ promise fields line work nonce past,
      own me trace = exchange promise fields line ++ .called (.mine work) (.ok nonce) :: past ∧
        parseSubmitResponse line = .ok accepted
  | .called (.mine work) _ => (∀ fields, .called (.send fields) () ∉ own me trace) ∧
      ∃ session params extraNonce2, .started (.data (.notify params)) ∈ own me trace ∧
        HoldsSession session trace ∧ Mines sha256 session params extraNonce2 work
  | .started .connected => ∀ pair ∈ trace, ScriptEvent.connects pair.2 = false
  | _ => True

def scriptContract (sha256 : Bytes → Bytes) (address : String) : Contract ScriptState ScriptAnswer ScriptTask where
  admits := scriptAdmits
  monitor := scriptMonitor sha256 address
  rely _ _ := True
  invariant := ScriptInvariant

/-- A quiet event sends no request, awaits no response, and opens no session. -/
def ScriptEvent.Quiet : ScriptEvent → Prop
  | .called (.send _) _ => False
  | .issued (.response _) => False
  | .started .connected => False
  | _ => True

section Growth

variable {before after : ScriptTrace} {promise : ℕ} {fields : Fields} {line : Line}

theorem Registered.mono (grows : before <:+ after) : Registered before promise fields →
    Registered after promise fields := by
  rintro ⟨me, earlier, suffix⟩
  exact ⟨me, earlier, suffix.trans grows⟩

theorem Settles.mono (grows : before <:+ after) : Settles before promise line → Settles after promise line := by
  rintro ⟨fields, id, registered, numbered, key, me, started⟩
  exact ⟨fields, id, registered.mono grows, numbered, key, me, grows.subset started⟩

theorem Unmasked.of_suffix (grows : before <:+ after) (unmasked : Unmasked after) : Unmasked before :=
  fun pair member => unmasked pair (grows.subset member)

theorem mem_awaited {trace : ScriptTrace} : promise ∈ awaited trace ↔
    ∃ me, (me, .issued (.response promise)) ∈ trace := by
  constructor
  · intro member
    obtain ⟨⟨me, event⟩, inside, awaits⟩ := List.mem_filterMap.mp member
    change ScriptEvent.awaited? event = some promise at awaits
    unfold ScriptEvent.awaited? at awaits
    split at awaits
    · cases awaits
      exact ⟨me, inside⟩
    · cases awaits
  · rintro ⟨me, inside⟩
    exact List.mem_filterMap.mpr ⟨_, inside, rfl⟩

/-- A promise waits for one request of one thread. -/
theorem Registered.unique {trace : ScriptTrace} (distinct : (awaited trace).Nodup)
    (registered : Registered trace promise fields) {me : ℕ} {earlier : ScriptTrace} {other : Fields}
    (suffix : (me, .issued (.response promise)) :: (me, .called (.send other) ()) :: earlier <:+ trace) :
    fields = other := by
  obtain ⟨index, past, suffix'⟩ := registered
  have later : ∀ {first second : ScriptTrace} {one two : ℕ},
      (one, .issued (.response promise)) :: first <:+ trace → ¬ (two, .issued (.response promise)) :: second <:+ first := by
    intro first second one two whole inside
    have apart : (awaited ((one, .issued (.response promise)) :: first)).Nodup :=
      (whole.filterMap _).sublist.nodup distinct
    apply (List.nodup_cons.mp apart).1
    exact mem_awaited.mpr ⟨two, inside.subset List.mem_cons_self⟩
  rcases List.suffix_or_suffix_of_suffix suffix suffix' with within | within
  · rcases List.suffix_cons_iff.mp within with same | inside
    · cases same
      rfl
    · exact absurd inside (later suffix')
  · rcases List.suffix_cons_iff.mp within with same | inside
    · cases same
      rfl
    · exact absurd inside (later suffix)

end Growth

section Invariants

variable {me : ℕ} {state : ScriptState} {trace : ScriptTrace} {event : ScriptEvent}

theorem awaited_cons_of_quiet (quiet : ScriptEvent.Quiet event) : awaited ((me, event) :: trace) = awaited trace := by
  apply List.filterMap_cons_none
  cases event with
  | issued request =>
      cases request with
      | response promise => exact quiet.elim
      | _ => rfl
  | _ => rfl

/-- A quiet event leaves the ids, the promises, and the opening thread alone. -/
theorem ScriptCore.cons (core : ScriptCore state trace) (quiet : ScriptEvent.Quiet event) :
    ScriptCore state ((me, event) :: trace) := by
  have grows : trace <:+ (me, event) :: trace := List.suffix_cons _ _
  have connected : ∀ index, (index, .started .connected) ∈ (me, event) :: trace →
      (index, .started .connected) ∈ trace := by
    intro index member
    rcases List.mem_cons.mp member with same | older
    · cases same
      exact quiet.elim
    · exact older
  refine ⟨?_, ?_, ?_, ?_, ?_, ?_⟩
  · intro index fields member
    rcases List.mem_cons.mp member with same | older
    · cases same
      exact quiet.elim
    · exact core.ids index fields older
  · rw [awaited_cons_of_quiet quiet]
    exact core.promised
  · rw [awaited_cons_of_quiet quiet]
    exact core.distinct
  · intro key promise found
    obtain ⟨fields, id, registered, rest⟩ := core.pending key promise found
    exact ⟨fields, id, registered.mono grows, rest⟩
  · exact fun promise line found => (core.settled promise line found).mono grows
  · exact fun first second one two => core.single first second (connected first one) (connected second two)

/-- The session needs no other fields of the state. -/
theorem ScriptCore.same (core : ScriptCore state trace) {after : ScriptState}
    (ids : state.nextId ≤ after.nextId) (promises : after.promises = state.promises)
    (pending : after.pending = state.pending) (settled : after.settled = state.settled) :
    ScriptCore after trace := by
  refine ⟨?_, ?_, core.distinct, ?_, ?_, core.single⟩
  · intro index fields member
    obtain ⟨id, smaller, numbered⟩ := core.ids index fields member
    exact ⟨id, smaller.trans_le ids, numbered⟩
  · rw [promises]
    exact core.promised
  · rw [pending]
    exact core.pending
  · rw [settled]
    exact core.settled

theorem responses_cons (history : ScriptHistory) (event : ScriptEvent) :
    responses (event :: history) = responses history ++ (ScriptEvent.response? event).toList := by
  cases answered : ScriptEvent.response? event with
  | none => simp [responses, answered]
  | some line => simp [responses, answered]

/-- A session is held until its opening thread awaits another response. -/
theorem HoldsSession.cons {session : Session} (holds : HoldsSession session trace)
    (unopened : event ≠ .started .connected)
    (other : ScriptEvent.response? event = none ∨ (me, .started .connected) ∉ trace) :
    HoldsSession session ((me, event) :: trace) := by
  have grows : trace <:+ (me, event) :: trace := List.suffix_cons _ _
  constructor
  · intro unmasked index member
    have older : (index, .started .connected) ∈ trace := by
      rcases List.mem_cons.mp member with same | older
      · cases same
        exact absurd rfl unopened
      · exact older
    rw [holds.opened (unmasked.of_suffix grows) index older]
    by_cases same : me = index
    · subst same
      have silent := other.resolve_right fun absent => absent older
      rw [own_cons_self, responses_cons, silent, Option.toList_none, List.append_nil]
    · rw [(extends_cons same).own_eq]
  · intro unmasked closed
    exact holds.unopened (unmasked.of_suffix grows) fun index member => closed index (grows.subset member)

theorem ScriptInvariant.cons (kept : ScriptInvariant state trace) (quiet : ScriptEvent.Quiet event)
    (other : ScriptEvent.response? event = none ∨ (me, .started .connected) ∉ trace) :
    ScriptInvariant state ((me, event) :: trace) := by
  refine ⟨kept.toScriptCore.cons quiet, kept.session.cons ?_ other⟩
  rintro rfl
  exact quiet

/-- A request of the newest id has just gone out, and the promise of its response is not awaited yet. -/
structure Sent (me promise : ℕ) (fields : Fields) (state : ScriptState) (trace : ScriptTrace) : Prop where
  newest : trace.head? = some (me, .called (.send fields) ())
  numbered : ∃ id < state.nextId, Numbered fields id ∧ ∀ key other, state.pending key = some other →
    key = toString id ∧ other = promise ∨ ∃ earlier number, Registered trace other earlier ∧
      Numbered earlier number ∧ key = toString number
  allocated : promise < state.promises
  fresh : ∀ other ∈ awaited trace, other < promise
  ids : ∀ index earlier, (index, .called (.send earlier) ()) ∈ trace → ∃ id < state.nextId, Numbered earlier id
  distinct : (awaited trace).Nodup
  settled : ∀ other line, state.settled other = some line → Settles trace other line
  single : ∀ first second, (first, .started .connected) ∈ trace → (second, .started .connected) ∈ trace →
    first = second
  session : HoldsSession state.session trace

/-- The promise is registered when its await begins. -/
theorem Sent.issue {promise : ℕ} {fields : Fields} (sent : Sent me promise fields state trace) :
    ScriptInvariant state ((me, .issued (.response promise)) :: trace) := by
  have grows : trace <:+ (me, .issued (.response promise)) :: trace := List.suffix_cons _ _
  have listed : awaited ((me, .issued (.response promise)) :: trace) = promise :: awaited trace := rfl
  have unsent : ∀ index earlier, (index, .called (.send earlier) ()) ∈
      ((me, .issued (.response promise)) :: trace : ScriptTrace) → (index, .called (.send earlier) ()) ∈ trace := by
    intro index earlier member
    exact (List.mem_cons.mp member).resolve_left fun same => by cases same
  have unopened : ∀ index, (index, .started .connected) ∈
      ((me, .issued (.response promise)) :: trace : ScriptTrace) → (index, .started .connected) ∈ trace := by
    intro index member
    exact (List.mem_cons.mp member).resolve_left fun same => by cases same
  refine ⟨⟨?_, ?_, ?_, ?_, ?_, ?_⟩, sent.session.cons (by simp) (.inl rfl)⟩
  · exact fun index earlier member => sent.ids index earlier (unsent index earlier member)
  · rw [listed]
    intro other member
    rcases List.mem_cons.mp member with rfl | older
    · exact sent.allocated
    · exact (sent.fresh other older).trans sent.allocated
  · rw [listed]
    refine List.nodup_cons.mpr ⟨fun member => ?_, sent.distinct⟩
    exact absurd (sent.fresh promise member) (Nat.lt_irrefl _)
  · intro key other found
    obtain ⟨id, _, numbered, entries⟩ := sent.numbered
    rcases entries key other found with ⟨rfl, rfl⟩ | ⟨earlier, number, registered, rest⟩
    · obtain ⟨older, whole⟩ := List.head?_eq_some_iff.mp sent.newest
      exact ⟨fields, id, ⟨me, older, by rw [whole]⟩, numbered, rfl⟩
    · exact ⟨earlier, number, registered.mono grows, rest⟩
  · exact fun other line found => (sent.settled other line found).mono grows
  · exact fun first second one two => sent.single first second (unopened first one) (unopened second two)

/-- The invariant with a gap for the request that takes the next id. -/
structure Numbers (id : ℕ) (state : ScriptState) (trace : ScriptTrace) : Prop extends ScriptInvariant state trace where
  next : state.nextId = id + 1
  smaller : ∀ index earlier, (index, .called (.send earlier) ()) ∈ trace → ∃ number < id, Numbered earlier number

theorem ScriptInvariant.number (kept : ScriptInvariant state trace) :
    Numbers state.nextId { state with nextId := state.nextId + 1 } trace :=
  ⟨⟨kept.toScriptCore.same (Nat.le_succ _) rfl rfl rfl, kept.session⟩, rfl, kept.ids⟩

/-- The line of a request goes out under an id of its own. -/
theorem Numbers.send {id : ℕ} {fields : Fields} (numbers : Numbers id state trace) (numbered : Numbered fields id) :
    Sent me state.promises fields { state with
      pending := state.pending.insert (toString (state.nextId - 1)) state.promises
      promises := state.promises + 1 } ((me, .called (.send fields) ()) :: trace) := by
  have grows : trace <:+ (me, .called (.send fields) ()) :: trace := List.suffix_cons _ _
  have listed : awaited ((me, .called (.send fields) ()) :: trace) = awaited trace := rfl
  have next : state.nextId - 1 = id := by
    rw [numbers.next]
    rfl
  have unopened : ∀ index, (index, .started .connected) ∈
      ((me, .called (.send fields) ()) :: trace : ScriptTrace) → (index, .started .connected) ∈ trace := by
    intro index member
    exact (List.mem_cons.mp member).resolve_left fun same => by cases same
  refine ⟨rfl, ⟨id, ?_, numbered, ?_⟩, Nat.lt_succ_self _, ?_, ?_, ?_, ?_, ?_, numbers.session.cons (by simp) (.inl rfl)⟩
  · rw [numbers.next]
    exact Nat.lt_succ_self _
  · rw [next]
    intro key other found
    rcases Dictionary.insert_eq_some.mp found with ⟨rfl, rfl⟩ | ⟨_, older⟩
    · exact .inl ⟨rfl, rfl⟩
    · obtain ⟨earlier, number, registered, rest⟩ := numbers.pending key other older
      exact .inr ⟨earlier, number, registered.mono grows, rest⟩
  · rw [listed]
    exact numbers.promised
  · intro index earlier member
    rcases List.mem_cons.mp member with same | older
    · cases same
      refine ⟨id, ?_, numbered⟩
      rw [numbers.next]
      exact Nat.lt_succ_self _
    · exact numbers.ids index earlier older
  · rw [listed]
    exact numbers.distinct
  · exact fun other line found => (numbers.settled other line found).mono grows
  · exact fun first second one two => numbers.single first second (unopened first one) (unopened second two)

/-- A response settles the promise of its key. -/
theorem ScriptInvariant.resolve (kept : ScriptInvariant state trace) {key : String} {promise : ℕ} {line : Line}
    (found : state.pending key = some promise) (keyed : lineKey line = some key)
    (arrived : ∃ index, (index, .started (.data line)) ∈ trace) :
    ScriptInvariant (resolve promise line state) trace := by
  have erased : (StratumClient.resolve promise line state).pending = state.pending.erase key := by
    unfold StratumClient.resolve
    rw [keyed]
    rfl
  refine ⟨⟨kept.ids, kept.promised, kept.distinct, ?_, ?_, kept.single⟩, kept.session⟩
  · rw [erased]
    intro other number stored
    exact kept.pending other number (Dictionary.erase_eq_some.mp stored).2
  · intro other settling stored
    change (if other = promise then (state.settled promise).or (some line) else state.settled other) = _ at stored
    split at stored
    · rename_i same
      cases older : state.settled promise with
      | some first =>
          rw [older] at stored
          cases stored
          rw [same]
          exact kept.settled promise _ older
      | none =>
          rw [older] at stored
          cases stored
          obtain ⟨fields, id, registered, numbered, rfl⟩ := kept.pending key promise found
          rw [same]
          exact ⟨fields, id, registered, numbered, keyed, arrived⟩
    · exact kept.settled other settling stored

end Invariants

section Rules

variable {sha256 : Bytes → Bytes} {address : String} {me : ℕ} {V : Type} {state : ScriptState} {trace : ScriptTrace}

theorem Numbered.unique {fields : Fields} {first second : ℕ} (one : Numbered fields first)
    (two : Numbered fields second) : first = second := by
  have same : Json.number (.ofNat first) = .number (.ofNat second) := one.symm.trans two
  exact Number.ofNat_injective (Json.number.inj same)

theorem wp_send {id : ℕ} {fields : Fields} (numbers : Numbers id state trace) (numbered : Numbered fields id)
    (sends : Sends sha256 address trace me fields) :
    wp (scriptContract sha256 address) me (send fields) (fun result after later => ∃ promise,
      result = .ok promise ∧ Sent me promise fields after later ∧ later = (me, .called (.send fields) ()) :: trace)
      state trace := by
  intro answer _
  refine ⟨⟨sends, id, numbered, numbers.smaller⟩, trivial, ?_⟩
  exact ⟨state.promises, rfl, numbers.send numbered, rfl⟩

/-- The awaited response carries the id of the request. -/
theorem wp_response {promise : ℕ} {fields : Fields} {next : Line → ScriptProgram V}
    {post : Post ScriptState ScriptAnswer Thrown V ScriptTask} (sent : Sent me promise fields state trace)
    (continues : ∀ after later line, ScriptInvariant after later → trace <:+ later →
      own me later = .issued (.response promise) :: own me trace →
        wp (scriptContract sha256 address) me (next line) post after
          ((me, .answered (.response promise) line) :: later)) :
    wp (scriptContract sha256 address) me ((Program.awaiting (.response promise)).bind next) post state trace := by
  refine ⟨⟨?_, fields, sent.newest⟩, sent.issue, ?_⟩
  · intro member
    exact absurd (sent.fresh promise member) (Nat.lt_irrefl _)
  · intro after later _ extension kept line admitted
    obtain ⟨older, whole⟩ := List.head?_eq_some_iff.mp sent.newest
    have owned : own me later = .issued (.response promise) :: own me trace := by
      rw [extension.own_eq, own_cons_self]
    obtain ⟨request, id, registered, numbered, keyed, arrived⟩ := kept.settled promise line admitted
    have suffix : (me, .issued (.response promise)) :: (me, .called (.send fields) ()) :: older <:+ later := by
      rw [← whole]
      exact extension.suffix
    obtain rfl := registered.unique kept.distinct suffix
    refine ⟨⟨request, id, own me older, ?_, numbered, keyed, arrived⟩, ?_⟩
    · rw [owned, whole, own_cons_self]
    · exact continues after later line kept ((List.suffix_cons _ _).trans extension.suffix) owned

/-- A request of the session takes the next id. -/
theorem wp_request {create : ℕ → Fields} {next : Line → ScriptProgram V}
    {post : Post ScriptState ScriptAnswer Thrown V ScriptTask} (kept : ScriptInvariant state trace)
    (numbered : ∀ id, Numbered (create id) id) (sends : ∀ id, Sends sha256 address trace me (create id))
    (continues : ∀ after later promise id line, ScriptInvariant after later →
      own me later = .issued (.response promise) :: .called (.send (create id)) () :: own me trace →
        wp (scriptContract sha256 address) me (next line) post after
          ((me, .answered (.response promise) line) :: later)) :
    wp (scriptContract sha256 address) me (((request create).lift minerLifting).bind next) post state trace := by
  have sending : wp (scriptContract sha256 address) me ((((send (create state.nextId)).bind fun promise =>
      Program.awaiting (ScriptCall.response promise)).bind Program.done).bind next) post
        { state with nextId := state.nextId + 1 } trace := by
    rw [Program.bind_assoc, Program.bind_assoc, wp_bind]
    apply wp_mono _ (wp_send kept.number (numbered state.nextId) (sends state.nextId))
    rintro result after later ⟨promise, rfl, sent, rfl⟩
    refine wp_response sent ?_
    intro last final line kept _ owned
    rw [own_cons_self] at owned
    exact continues last final promise state.nextId line kept owned
  exact ⟨trivial, sending⟩

end Rules

/-- The part of the session after its configuration. -/
def afterConfigure (address : String) (cfgResponse : Line) : MinerProgram Unit := do
  let result ← .ofExcept (parseConfigureResponse cfgResponse)
  adoptMask result
  let authResponse ← request (authorizeMessage address)
  let authorized ← .ofExcept (parseAuthorizeResponse authResponse)
  if !authorized then Program.perform MinerCall.endSocket else pure ()

/-- The part of the session after its subscription. -/
def afterSubscribe (address : String) (subResponse : Line) : MinerProgram Unit := do
  let subscription ← .ofExcept (parseSubscribeResponse subResponse)
  .modify fun state =>
    { state with sessionId := subscription.1, extraNonce2Size := subscription.2 }
  let state ← .load
  let cfgResponse ← request (configureMessage state.versionRollingMask)
  afterConfigure address cfgResponse

theorem connect_eq (address : String) : connect address = (request subscribeMessage).bind (afterSubscribe address) :=
  rfl

section Opening

variable {sha256 : Bytes → Bytes} {address : String} {me : ℕ} {V : Type} {state : ScriptState} {trace : ScriptTrace}

/-- The opening thread alone decides the session. -/
theorem holdsSession_of_single {session : Session}
    (single : ∀ first second, (first, .started .connected) ∈ trace → (second, .started .connected) ∈ trace →
      first = second) (opened : (me, .started .connected) ∈ trace)
    (same : Unmasked trace → session = Session.ofResponses (responses (own me trace))) :
    HoldsSession session trace := by
  refine ⟨?_, fun _ closed => absurd opened (closed me)⟩
  intro unmasked index member
  rw [single index me member opened]
  exact same unmasked

/-- The opening thread holds a session that its history explains. -/
structure Opening (me : ℕ) (history : ScriptHistory) (session : Session) (state : ScriptState)
    (trace : ScriptTrace) : Prop extends ScriptCore state trace where
  owned : own me trace = history
  opened : .started .connected ∈ history
  held : Unmasked trace → state.session = session

theorem Opening.invariant {history : ScriptHistory} {session : Session}
    (opening : Opening me history session state trace)
    (same : session = Session.ofResponses (responses history)) : ScriptInvariant state trace := by
  have opened : (me, .started .connected) ∈ trace := by
    apply mem_own.mp
    rw [opening.owned]
    exact opening.opened
  refine ⟨opening.toScriptCore, holdsSession_of_single opening.single opened fun unmasked => ?_⟩
  rw [opening.held unmasked, opening.owned, same]

/-- A response goes to the opening thread before the session takes its values. -/
theorem ScriptInvariant.opening {history : ScriptHistory} (kept : ScriptInvariant state trace)
    (owned : own me trace = history) (opened : .started .connected ∈ history) {promise : ℕ} (line : Line) :
    Opening me (.answered (.response promise) line :: history) (Session.ofResponses (responses history)) state
      ((me, .answered (.response promise) line) :: trace) := by
  refine ⟨kept.toScriptCore.cons trivial, ?_, List.mem_cons_of_mem _ opened, ?_⟩
  · rw [own_cons_self, owned]
  · intro unmasked
    rw [← owned] at opened ⊢
    exact kept.session.opened (unmasked.of_suffix (List.suffix_cons _ _)) me (mem_own.mp opened)

/-- The mask of the pool is adopted, or the session keeps its own. -/
theorem wp_adoptMask {post : Post ScriptState ScriptAnswer Thrown Unit ScriptTask} (result : Json)
    (adopted : ∀ outcome, post outcome
      { state with versionRollingMask := (state.session.adopt result).versionRollingMask } trace) :
    wp (scriptContract sha256 address) me ((adoptMask result).lift minerLifting) post state trace := by
  unfold adoptMask
  unfold Session.adopt at adopted
  simp only [Program.bind_eq, Program.lift_bind, Program.lift_ofExcept]
  cases found : Value.field (some result) "version-rolling.mask" with
  | error thrown =>
      rw [found] at adopted
      exact adopted (.error thrown)
  | ok maskFromServer =>
      rw [found] at adopted
      cases maskFromServer with
      | none => exact adopted (.ok ())
      | some mask =>
          cases mask with
          | string text =>
              show wp _ me ((if text.toLower ≠ "" then _ else _ : MinerProgram Unit).lift minerLifting) post state trace
              split
              · rename_i nonempty
                simp only [nonempty, ne_eq, not_false_eq_true, if_true] at adopted
                exact ⟨trivial, adopted (.ok ())⟩
              · rename_i empty
                simp only [empty, if_false] at adopted
                exact adopted (.ok ())
          | null => exact adopted (.ok ())
          | bool value => exact adopted (.error .typeError)
          | number value => exact adopted (.error .typeError)
          | array elements => exact adopted (.error .typeError)
          | object fields => exact adopted (.error .typeError)

theorem Session.adopt_eq (session : Session) (result : Json) :
    session.adopt result = { session with versionRollingMask := (session.adopt result).versionRollingMask } := by
  unfold Session.adopt
  split
  · split <;> rfl
  · rfl

theorem numbered_subscribeMessage (id : ℕ) : Numbered (subscribeMessage id) id := rfl

theorem numbered_configureMessage (mask : String) (id : ℕ) : Numbered (configureMessage mask id) id := rfl

theorem numbered_authorizeMessage (address : String) (id : ℕ) : Numbered (authorizeMessage address id) id := rfl

/-- The session authorizes after its configuration, whatever the mask of the pool is. -/
theorem wp_afterConfigure {earlier : ScriptHistory} {subResponse cfgResponse : Line} {promise id : ℕ} {mask : String}
    (subscribed : Subscribed earlier subResponse) (counted : responses earlier = [subResponse])
    (opening : Opening me (exchange promise (configureMessage mask id) cfgResponse ++ earlier)
      (({} : Session).subscribe subResponse) state trace) :
    wp (scriptContract sha256 address) me ((afterConfigure address cfgResponse).lift minerLifting)
      (fun _ => ScriptInvariant) state trace := by
  have answered : Session.ofResponses (responses (exchange promise (configureMessage mask id) cfgResponse ++ earlier)) =
      (({} : Session).subscribe subResponse).configure cfgResponse := by
    change Session.ofResponses (responses (Event.answered (ScriptCall.response promise) cfgResponse :: earlier)) = _
    rw [responses_cons, counted]
    rfl
  unfold afterConfigure
  simp only [Program.bind_eq, Program.lift_bind, Program.lift_ofExcept]
  unfold Session.configure at answered
  cases parsed : parseConfigureResponse cfgResponse with
  | error thrown =>
      rw [parsed] at answered
      exact opening.invariant answered.symm
  | ok result =>
      rw [parsed] at answered
      show wp _ me (((adoptMask result).lift minerLifting).bind _) _ state trace
      rw [wp_bind]
      apply wp_adoptMask
      intro outcome
      have adopted : Opening me (exchange promise (configureMessage mask id) cfgResponse ++ earlier)
          ((({} : Session).subscribe subResponse).adopt result)
          { state with versionRollingMask := (state.session.adopt result).versionRollingMask } trace := by
        refine ⟨opening.toScriptCore.same (Nat.le_refl _) rfl rfl rfl, opening.owned, opening.opened, ?_⟩
        intro unmasked
        rw [← opening.held unmasked, Session.adopt_eq]
        rfl
      cases outcome with
      | error thrown => exact adopted.invariant answered.symm
      | ok done =>
          have configured : Configured (own me trace) subResponse cfgResponse :=
            ⟨⟨promise, mask, id, earlier, opening.owned, subscribed⟩, result, parsed⟩
          refine wp_request (adopted.invariant answered.symm) (numbered_authorizeMessage address)
            (fun id => .authorize id configured) ?_
          intro after later promise' id' authResponse kept owned
          have opened : .started .connected ∈ own me later := by
            rw [owned, opening.owned]
            exact List.mem_cons_of_mem _ (List.mem_cons_of_mem _ opening.opened)
          have two : responses (own me later) = [subResponse, cfgResponse] := by
            rw [owned, opening.owned]
            change responses (Event.answered (ScriptCall.response promise) cfgResponse :: earlier) = _
            rw [responses_cons, counted]
            rfl
          have closing := @ScriptInvariant.opening me after later _ kept rfl opened promise' authResponse
          have kept : ScriptInvariant after ((me, .answered (.response promise') authResponse) :: later) := by
            apply closing.invariant
            rw [responses_cons, two]
            rfl
          cases parseAuthorizeResponse authResponse with
          | error thrown => exact kept
          | ok authorized =>
              cases authorized with
              | true => exact kept
              | false =>
                  intro answer _
                  exact ⟨trivial, kept.cons trivial (.inl rfl)⟩

/-- The session configures version rolling after its subscription. -/
theorem wp_afterSubscribe {subResponse : Line} {promise id : ℕ}
    (opening : Opening me (exchange promise (subscribeMessage id) subResponse ++ [.started .connected]) {} state trace) :
    wp (scriptContract sha256 address) me ((afterSubscribe address subResponse).lift minerLifting)
      (fun _ => ScriptInvariant) state trace := by
  have counted : responses (exchange promise (subscribeMessage id) subResponse ++ [.started .connected]) =
      [subResponse] := rfl
  have answered : Session.ofResponses (responses
      (exchange promise (subscribeMessage id) subResponse ++ [.started .connected])) =
        ({} : Session).subscribe subResponse := by
    rw [counted]
    rfl
  unfold afterSubscribe
  simp only [Program.bind_eq, Program.lift_bind, Program.lift_ofExcept]
  cases parsed : parseSubscribeResponse subResponse with
  | error thrown =>
      apply opening.invariant
      rw [answered, Session.subscribe, parsed]
  | ok subscription =>
      have values : ({} : Session).subscribe subResponse =
          { sessionId := subscription.1, extraNonce2Size := subscription.2 } := by
        rw [Session.subscribe, parsed]
      have stored : Opening me (exchange promise (subscribeMessage id) subResponse ++ [.started .connected])
          (({} : Session).subscribe subResponse)
          { state with sessionId := subscription.1, extraNonce2Size := subscription.2 } trace := by
        refine ⟨opening.toScriptCore.same (Nat.le_refl _) rfl rfl rfl, opening.owned, opening.opened, ?_⟩
        intro unmasked
        have plain : state.versionRollingMask = "1fffe000" := congrArg Session.versionRollingMask (opening.held unmasked)
        rw [values, MinerState.session, plain]
      have subscribed : Subscribed (own me trace) subResponse :=
        ⟨⟨promise, id, opening.owned⟩, subscription, parsed⟩
      refine ⟨trivial, ?_⟩
      refine wp_request (stored.invariant answered.symm) (numbered_configureMessage state.versionRollingMask)
        (fun id => .configure id (stored.invariant answered.symm).session subscribed) ?_
      intro after later promise' id' cfgResponse kept owned
      rw [opening.owned] at owned
      have opened : .started .connected ∈ own me later := by
        rw [owned]
        exact List.mem_cons_of_mem _ (List.mem_cons_of_mem _ opening.opened)
      have configuring := @ScriptInvariant.opening me after later _ kept rfl opened promise' cfgResponse
      have session : Session.ofResponses (responses (own me later)) = ({} : Session).subscribe subResponse := by
        rw [owned]
        rfl
      rw [session, owned] at configuring
      refine wp_afterConfigure ⟨⟨promise, id, rfl⟩, subscription, parsed⟩ counted configuring

theorem wp_connect (kept : ScriptInvariant state trace) (owned : own me trace = [.started .connected]) :
    wp (scriptContract sha256 address) me ((connect address).lift minerLifting) (fun _ => ScriptInvariant)
      state trace := by
  rw [connect_eq, Program.lift_bind]
  refine wp_request kept numbered_subscribeMessage (fun id => .subscribe id owned) ?_
  intro after later promise id subResponse kept owned'
  rw [owned] at owned'
  have opened : .started .connected ∈ own me later := by
    rw [owned']
    exact List.mem_cons_of_mem _ (List.mem_cons_of_mem _ List.mem_cons_self)
  have subscribing := @ScriptInvariant.opening me after later _ kept rfl opened promise subResponse
  rw [owned'] at subscribing
  exact wp_afterSubscribe subscribing

end Opening

section Handling

variable {sha256 : Bytes → Bytes} {address : String} {me : ℕ} {state : ScriptState} {trace : ScriptTrace}

theorem Numbers.cons {id : ℕ} (numbers : Numbers id state trace) {event : ScriptEvent} (quiet : ScriptEvent.Quiet event)
    (silent : ScriptEvent.response? event = none) : Numbers id state ((me, event) :: trace) := by
  refine ⟨numbers.toScriptInvariant.cons quiet (.inl silent), numbers.next, ?_⟩
  intro index earlier member
  rcases List.mem_cons.mp member with same | older
  · cases same
    exact quiet.elim
  · exact numbers.smaller index earlier older

/-- The mined work is ready to be submitted, or the line has failed. -/
def Mined (sha256 : Bytes → Bytes) (address : String) (me : ℕ) : Post ScriptState ScriptAnswer Thrown Fields ScriptTask :=
  fun result after later => (∀ submit, result = .ok submit → ∃ id work nonce, Numbers id after later ∧
    Numbered submit id ∧ Sends sha256 address later me submit ∧
      ∃ past, own me later = .called (.mine work) (.ok nonce) :: past ∧ .started .connected ∉ past) ∧
    ScriptInvariant after later

theorem mined_of_failed {thrown : Thrown} (kept : ScriptInvariant state trace) :
    Mined sha256 address me (.error thrown) state trace :=
  ⟨fun _ impossible => (by cases impossible), kept⟩

theorem mined_of_ok {id : ℕ} {submit : Fields} {work : MiningWork} {nonce : BitVec 32} {past : ScriptHistory}
    (numbers : Numbers id state trace) (numbered : Numbered submit id) (sends : Sends sha256 address trace me submit)
    (owned : own me trace = .called (.mine work) (.ok nonce) :: past) (unopened : .started .connected ∉ past) :
    Mined sha256 address me (.ok submit) state trace := by
  refine ⟨fun other same => ?_, numbers.toScriptInvariant⟩
  obtain rfl := Except.ok.inj same
  exact ⟨id, work, nonce, numbers, numbered, sends, past, owned, unopened⟩

/-- The call of the library is recorded, and the request keeps its id. -/
theorem Numbers.called {id : ℕ} {history : ScriptHistory} (numbers : Numbers id state trace)
    (owned : own me trace = history) {request : ScriptCall} (answer : ScriptAnswer request)
    (quiet : ScriptEvent.Quiet (.called request answer)) :
    Numbers id state ((me, .called request answer) :: trace) ∧
      own me ((me, .called request answer) :: trace) = .called request answer :: history := by
  refine ⟨numbers.cons quiet rfl, ?_⟩
  rw [own_cons_self, owned]

theorem numbered_submitOf (session : Session) (params : MiningNotify) (extraNonce2 : String) (nonce : BitVec 32)
    (id : ℕ) : Numbered (submitOf session params extraNonce2 nonce id) id := rfl

/-- A call of the library is recorded without a condition. -/
theorem wp_library {V : Type} {request : ScriptCall} {next : ScriptAnswer request → ScriptProgram V}
    {post : Post ScriptState ScriptAnswer Thrown V ScriptTask} {id : ℕ} {history : ScriptHistory}
    (numbers : Numbers id state trace) (owned : own me trace = history)
    (free : ∀ answer, scriptMonitor sha256 address trace me (.called request answer))
    (quiet : ∀ answer, ScriptEvent.Quiet (.called request answer))
    (continues : ∀ answer later, scriptAdmits me state trace request answer → Numbers id state later →
      own me later = .called request answer :: history →
        wp (scriptContract sha256 address) me (next answer) post state later) :
    wp (scriptContract sha256 address) me (.call request next) post state trace := by
  intro answer admitted
  have called := numbers.called owned answer (quiet answer)
  exact ⟨free answer, continues answer _ admitted called.1 called.2⟩

/-- The work of a notify line is made from the session that the script holds. -/
theorem wp_handleLine {params : MiningNotify} (kept : ScriptInvariant state trace)
    (owned : own me trace = [.started (.data (.notify params))]) :
    wp (scriptContract sha256 address) me ((handleLine sha256 (.notify params)).lift minerLifting)
      (Mined sha256 address me) state trace := by
  have numbers := kept.number
  unfold handleLine handleNotify
  simp only [Program.bind_eq, Program.lift_bind, Program.lift_ofExcept, parseNotify]
  refine ⟨trivial, ?_⟩
  simp only [Program.lift, Program.ofExcept, Program.bind]
  cases swapped : swapWords (Bytes.ofHex params.prevHash.toLower).reverse with
  | error thrown => exact mined_of_failed numbers.toScriptInvariant
  | ok recentBlockHash =>
      refine wp_library numbers owned (fun _ => trivial) (fun _ => trivial) ?_
      intro random drawn _ numbers owned
      cases sized : hexLEFromNumber random.toNat state.extraNonce2Size with
      | error thrown =>
          show wp _ me (((Program.ofExcept (hexLEFromNumber random.toNat state.extraNonce2Size)).bind _).bind _) _ _ _
          rw [sized]
          exact mined_of_failed numbers.toScriptInvariant
      | ok extraNonce2 =>
          show wp _ me (((Program.ofExcept (hexLEFromNumber random.toNat state.extraNonce2Size)).bind _).bind _) _ _ _
          rw [sized]
          cases branch : params.merkleBranch with
          | nil => exact mined_of_failed numbers.toScriptInvariant
          | cons first rest =>
              refine wp_library numbers owned (fun _ => trivial) (fun _ => trivial) ?_
              intro key taken keyed numbers owned
              cases key with
              | error thrown => exact mined_of_failed numbers.toScriptInvariant
              | ok pubkey =>
                  have mines : Mines sha256 state.session params extraNonce2 {
                      pubkey, recentBlockHash
                      extraData := doubleSHA256 sha256 (Bytes.ofHex
                        (params.coinbasePart1 ++ state.sessionId ++ extraNonce2 ++ params.coinbasePart2))
                      version := (applyVersionRolling params.version.toLower state.versionRollingMask).2
                      timestamp := parseHex params.timestamp
                      startNonce := 0 } :=
                    ⟨⟨random, sized⟩, ⟨first, rest, branch, fun size => Except.ok.inj (keyed size)⟩, swapped, rfl, rfl, rfl⟩
                  have notified : .started (.data (.notify params)) ∈ own me taken := by
                    rw [owned]
                    simp
                  have unsent : ∀ fields, .called (.send fields) () ∉ own me taken := by
                    rw [owned]
                    simp
                  refine wp_library numbers owned
                    (fun _ => ⟨unsent, state.session, params, extraNonce2, notified, numbers.session, mines⟩)
                    (fun _ => trivial) ?_
                  intro mined searched _ numbers owned'
                  cases mined with
                  | error thrown => exact mined_of_failed numbers.toScriptInvariant
                  | ok nonce =>
                      rw [owned] at notified
                      have sends : Sends sha256 address searched me
                          (submitOf state.session params extraNonce2 nonce state.nextId) :=
                        .submit state.nextId owned' notified numbers.session mines
                      have numbered := numbered_submitOf state.session params extraNonce2 nonce state.nextId
                      exact ⟨trivial, mined_of_ok numbers numbered sends owned' (by simp)⟩

/-- A submit has just gone out, or the line needs no response. -/
def Handled (me : ℕ) : Post ScriptState ScriptAnswer Thrown (Option ℕ) ScriptTask := fun result after later =>
  (∀ promise, result = .ok (some promise) → ∃ fields work nonce past, Sent me promise fields after later ∧
    own me later = .called (.send fields) () :: .called (.mine work) (.ok nonce) :: past ∧
      .started .connected ∉ past) ∧
    ((∀ promise, result ≠ .ok (some promise)) → ScriptInvariant after later)

theorem handled_of_kept {result : Except Thrown (Option ℕ)} (none : ∀ promise, result ≠ .ok (some promise))
    (kept : ScriptInvariant state trace) : Handled me result state trace :=
  ⟨fun promise same => absurd same (none promise), fun _ => kept⟩

theorem wp_handlePart {line : Line} (kept : ScriptInvariant state trace)
    (owned : own me trace = [.started (.data line)]) :
    wp (scriptContract sha256 address) me (handlePart sha256 line) (Handled me) state trace := by
  have arrived : (me, .started (.data line)) ∈ trace := by
    apply mem_own.mp
    rw [owned]
    exact List.mem_singleton_self _
  unfold handlePart
  simp only [Program.bind_eq, Program.load, Program.bind]
  rw [wp]
  cases found : (lineKey line).bind state.pending.read with
  | some entry =>
      cases entry with
      | inherited => exact handled_of_kept (fun _ impossible => by cases impossible) kept
      | own promise =>
          obtain ⟨key, keyed, stored⟩ := Option.bind_eq_some_iff.mp found
          refine ⟨trivial, handled_of_kept (fun _ impossible => by cases impossible) ?_⟩
          exact kept.resolve (Dictionary.read_eq_own.mp stored) keyed ⟨me, arrived⟩
  | none =>
      cases line with
      | response id result => exact handled_of_kept (fun _ impossible => by cases impossible) kept
      | error id code message data => exact handled_of_kept (fun _ impossible => by cases impossible) kept
      | setDifficulty difficulty => exact handled_of_kept (fun _ impossible => by cases impossible) kept
      | notify params =>
          show wp _ me (((handleLine sha256 (.notify params)).lift minerLifting).bind fun submit =>
            (send submit).bind fun promise => .done (some promise)) _ state trace
          rw [wp_bind]
          apply wp_mono _ (wp_handleLine kept owned)
          rintro result after later ⟨submits, kept⟩
          cases result with
          | error thrown => exact handled_of_kept (fun _ impossible => by cases impossible) kept
          | ok submit =>
              obtain ⟨id, work, nonce, numbers, numbered, sends, past, mined, unopened⟩ := submits submit rfl
              show wp _ me ((send submit).bind fun promise => .done (some promise)) _ after later
              rw [wp_bind]
              apply wp_mono _ (wp_send numbers numbered sends)
              rintro result last final ⟨promise, rfl, sent, rfl⟩
              refine ⟨fun other same => ?_, fun none => absurd rfl (none promise)⟩
              cases same
              refine ⟨submit, work, nonce, past, sent, ?_, unopened⟩
              rw [own_cons_self, mined]

/-- The log line of a submit says what its response says. -/
theorem wp_handleData {line : Line} (kept : ScriptInvariant state trace)
    (owned : own me trace = [.started (.data line)]) :
    wp (scriptContract sha256 address) me (handleData sha256 line) (fun _ => ScriptInvariant) state trace := by
  unfold handleData
  rw [Program.bind_eq, wp_bind, wp_attempt]
  apply wp_mono _ (wp_handlePart kept owned)
  rintro result after later ⟨submits, keeps⟩
  cases result with
  | error thrown => exact keeps fun _ impossible => by cases impossible
  | ok outcome =>
      cases outcome with
      | none => exact keeps fun _ impossible => by cases impossible
      | some promise =>
          obtain ⟨fields, work, nonce, past, sent, history, unopened⟩ := submits promise rfl
          refine wp_response sent ?_
          intro last final response kept _ owned
          rw [history] at owned
          have closed : (me, .started .connected) ∉ final := by
            rw [← mem_own, owned]
            simpa using unopened
          have answered : ScriptInvariant last ((me, .answered (.response promise) response) :: final) :=
            kept.cons trivial (.inr closed)
          cases parsed : parseSubmitResponse response with
          | error thrown => exact answered
          | ok accepted =>
              intro answer _
              refine ⟨⟨promise, fields, response, work, nonce, past, ?_, parsed⟩, answered.cons trivial (.inl rfl)⟩
              rw [own_cons_self, owned]
              rfl

/-- A mask that a line sets ends the agreement with the responses. -/
theorem wp_setVersionMask {mask : Value} (kept : ScriptInvariant state trace)
    (masked : (me, .started (.versionMask mask)) ∈ trace) :
    wp (scriptContract sha256 address) me ((setVersionMask mask).attempt fun _ => .done ())
      (fun _ => ScriptInvariant) state trace := by
  unfold setVersionMask
  rw [wp_attempt, Program.bind_eq, wp_bind, wp_ofExcept]
  cases mask.asString with
  | error thrown => exact kept
  | ok text =>
      have impossible : ¬ Unmasked trace := fun unmasked => absurd (unmasked _ masked) (by simp [ScriptEvent.setsMask])
      refine ⟨trivial, kept.toScriptCore.same (Nat.le_refl _) rfl rfl rfl, ?_⟩
      exact ⟨fun unmasked => absurd unmasked impossible, fun unmasked => absurd unmasked impossible⟩

end Handling

theorem scriptInvariant_initial : ScriptInvariant {} [] := by
  refine ⟨⟨?_, ?_, List.nodup_nil, ?_, ?_, ?_⟩, ⟨?_, fun _ _ => rfl⟩⟩
  · exact fun _ _ member => by cases member
  · exact fun _ member => by cases member
  · exact fun _ _ impossible => by cases impossible
  · exact fun _ _ impossible => by cases impossible
  · exact fun _ _ member => by cases member
  · exact fun _ _ member => by cases member

theorem ScriptEvent.connects_iff {event : ScriptEvent} : event.connects = true ↔ event = .started .connected := by
  constructor
  · intro connects
    unfold ScriptEvent.connects at connects
    split at connects
    · rfl
    · cases connects
  · rintro rfl
    rfl

/-- The first start of the session opens it. -/
theorem ScriptInvariant.start {me : ℕ} {state : ScriptState} {trace : ScriptTrace} (kept : ScriptInvariant state trace)
    (first : ∀ pair ∈ trace, ScriptEvent.connects pair.2 = false) (fresh : ∀ event, (me, event) ∉ trace) :
    ScriptInvariant state ((me, .started .connected) :: trace) := by
  have grows : trace <:+ (me, .started .connected) :: trace := List.suffix_cons _ _
  have closed : ∀ index, (index, .started .connected) ∉ trace := by
    intro index member
    have connects := first _ member
    cases connects
  have opener : ∀ index, (index, .started .connected) ∈ ((me, .started .connected) :: trace : ScriptTrace) →
      index = me := by
    intro index member
    rcases List.mem_cons.mp member with same | older
    · cases same
      rfl
    · exact absurd older (closed index)
  have alone : own me trace = [] :=
    List.eq_nil_iff_forall_not_mem.mpr fun event member => fresh event (mem_own.mp member)
  have core := kept.toScriptCore
  refine ⟨⟨?_, core.promised, core.distinct, ?_, ?_, ?_⟩, ?_⟩
  · intro index fields member
    exact core.ids index fields ((List.mem_cons.mp member).resolve_left fun same => by cases same)
  · intro key promise found
    obtain ⟨fields, id, registered, rest⟩ := core.pending key promise found
    exact ⟨fields, id, registered.mono grows, rest⟩
  · exact fun promise line found => (core.settled promise line found).mono grows
  · exact fun one two first second => (opener one first).trans (opener two second).symm
  · refine ⟨fun unmasked index member => ?_, fun _ closed => absurd List.mem_cons_self (closed me)⟩
    rw [opener index member, own_cons_self, alone, kept.session.unopened (unmasked.of_suffix grows) closed]
    rfl

theorem scriptContract_proved (sha256 : Bytes → Bytes) (address : String) :
    (scriptContract sha256 address).Proved (scriptSemantics sha256 address) {} where
  sameAnswers := rfl
  relyRefl _ := trivial
  relyTrans _ _ _ _ _ := trivial
  initially := scriptInvariant_initial
  starts := by
    intro state trace me task kept enabled fresh
    have owned : own me ((me, .started task) :: trace) = [.started task] := by
      rw [own_cons_self, List.eq_nil_iff_forall_not_mem.mpr fun event member => fresh event (mem_own.mp member)]
    cases task with
    | connected => exact ⟨enabled, wp_connect (kept.start enabled fresh) owned⟩
    | data line => exact ⟨trivial, wp_handleData (kept.cons trivial (.inl rfl)) owned⟩
    | versionMask mask => exact ⟨trivial, wp_setVersionMask (kept.cons trivial (.inl rfl)) List.mem_cons_self⟩
  disturbed _ _ _ _ disturbs := disturbs.elim

section Runs

variable {sha256 : Bytes → Bytes} {address : String} {trace : ScriptTrace}

/-- An id belongs to one request of one thread. -/
theorem request_of_id (accepted : Accepted (scriptMonitor sha256 address) trace) {one two : ℕ} {first second : Fields}
    {id : ℕ} (firstSent : (one, .called (.send first) ()) ∈ trace) (secondSent : (two, .called (.send second) ()) ∈ trace)
    (firstId : Numbered first id) (secondId : Numbered second id) : one = two ∧ first = second := by
  induction trace with
  | nil => cases firstSent
  | cons pair trace ih =>
      obtain ⟨index, event⟩ := pair
      obtain ⟨newest, older⟩ := accepted_cons.mp accepted
      -- A later request has a greater id than each request before it.
      have apart : ∀ {other fields earlier}, event = .called (.send fields) () → Numbered fields id →
          (other, .called (.send earlier) ()) ∈ trace → ¬ Numbered earlier id := by
        rintro other fields earlier rfl numbered member same
        obtain ⟨_, own, numbered', smaller⟩ := newest
        obtain ⟨lesser, less, numbered''⟩ := smaller other earlier member
        have one := numbered.unique numbered'
        have two := same.unique numbered''
        omega
      rcases List.mem_cons.mp firstSent with same | firstOlder
      · cases same
        rcases List.mem_cons.mp secondSent with same | secondOlder
        · cases same
          exact ⟨rfl, rfl⟩
        · exact absurd secondId (apart rfl firstId secondOlder)
      · rcases List.mem_cons.mp secondSent with same | secondOlder
        · cases same
          exact absurd firstId (apart rfl secondId firstOlder)
        · exact ih older firstOlder secondOlder

/-- A thread submits once, right after it has mined. -/
theorem submit_once (accepted : Accepted (scriptMonitor sha256 address) trace) {me : ℕ} {first second : Fields}
    {earlier : ScriptTrace} (suffix : (me, .called (.send second) ()) :: earlier <:+ trace) {work : MiningWork}
    {nonce : BitVec 32} {past : ScriptHistory} (mined : own me earlier = .called (.mine work) (.ok nonce) :: past) :
    (me, .called (.send first) ()) ∉ earlier := by
  intro sent
  rw [← mem_own, mined] at sent
  have before : Event.called (.send first) () ∈ past := (List.mem_cons.mp sent).resolve_left fun same => by cases same
  have owned : .called (.mine work) (.ok nonce) :: past <:+ own me trace := by
    rw [← mined]
    exact own_suffix me ((List.suffix_cons _ _).trans suffix)
  obtain ⟨oldest, inside, rfl⟩ := exists_of_own_suffix owned
  exact (accepted me _ oldest inside).1 first before

/-- A thread goes on with a response to the request that it has just sent. -/
theorem exchange_of_answered (accepted : Accepted (scriptMonitor sha256 address) trace) {me promise : ℕ} {line : Line}
    (member : (me, .answered (.response promise) line) ∈ trace) :
    ∃ fields past, exchange promise fields line ++ past <:+ own me trace := by
  obtain ⟨earlier, suffix⟩ := exists_cons_suffix member
  obtain ⟨fields, id, past, owned, _⟩ := accepted me _ earlier suffix
  refine ⟨fields, past, ?_⟩
  have inside := own_suffix me suffix
  rwa [own_cons_self, owned] at inside

/-- The response of an exchange has arrived under the id of its request. -/
theorem correlated_of_exchange (accepted : Accepted (scriptMonitor sha256 address) trace) {me promise : ℕ}
    {fields : Fields} {line : Line} {past : ScriptHistory}
    (exchanged : exchange promise fields line ++ past <:+ own me trace) : ∃ id, Numbered fields id ∧
      lineKey line = some (toString id) ∧ ∃ other, (other, .started (.data line)) ∈ trace := by
  obtain ⟨earlier, suffix, owned⟩ := exists_of_own_suffix exchanged
  obtain ⟨request, id, before, owned', numbered, keyed, other, arrived⟩ := accepted me _ earlier suffix
  obtain ⟨_, same⟩ := List.cons.inj (owned.symm.trans owned')
  cases (List.cons.inj same).1
  exact ⟨id, numbered, keyed, other, suffix.subset (List.mem_cons_of_mem _ arrived)⟩

end Runs

/-- The ids of the requests grow, no promise is awaited twice, and a thread goes on with a line that has arrived
and that carries the id of the request which this thread sent last. -/
structure CorrelatesResponses (trace : ScriptTrace) : Prop where
  growing : Accepted (fun earlier _ event => ∀ fields answer, event = .called (.send fields) answer →
    ∃ id, Numbered fields id ∧ ∀ other message, (other, .called (.send message) ()) ∈ earlier →
      ∃ smaller < id, Numbered message smaller) trace
  once : (awaited trace).Nodup
  answered : ∀ me promise line, (me, .answered (.response promise) line) ∈ trace → ∃ fields id past,
    exchange promise fields line ++ past <:+ own me trace ∧ Numbered fields id ∧
      lineKey line = some (toString id) ∧ ∃ other, (other, .started (.data line)) ∈ trace

/-- Whatever lines arrive, in whatever order, the script gives each request an id of its own and resolves each of
its promises with a response to the very request that the promise belongs to. -/
theorem script_correlates_responses (sha256 : Bytes → Bytes) (address : String)
    {system : System ScriptState ScriptAnswer Thrown Unit ScriptTask}
    (reached : Reachable (scriptSemantics sha256 address) {} system) : CorrelatesResponses system.trace := by
  obtain ⟨kept, accepted⟩ := (scriptContract_proved sha256 address).reachable reached
  refine ⟨accepted.mono ?_, kept.distinct, ?_⟩
  · rintro earlier me event monitored fields answer rfl
    exact monitored.2
  · intro me promise line member
    obtain ⟨fields, past, exchanged⟩ := exchange_of_answered accepted member
    obtain ⟨id, correlated⟩ := correlated_of_exchange accepted exchanged
    exact ⟨fields, id, past, exchanged, correlated⟩

/-- The responses of a pool that accepts everything. -/
def acceptingPool : (call : ScriptCall) → ScriptAnswer call
  | .send _ => ()
  | .response promise =>
      if promise = 0 then .response (.number 1) (.array
        [.array [.array [.string "mining.notify", .string "00000000"]], .string "00000000", .number 4])
      else if promise = 1 then .response (.number 2) (.object
        [("version-rolling", .bool true), ("version-rolling.mask", .string "1fffe000")])
      else .response (.number (.ofNat (promise + 1))) (.bool true)
  | .endSocket => ()
  | .random => 0x01020304
  | .publicKey key => .ok key
  | .mine _ => .ok 7
  | .submitAccepted _ => ()

/-- The first job of this pool. -/
def firstNotify : Line := .notify {
  jobId := "2"
  prevHash := Bytes.toHex (List.replicate 32 1)
  coinbasePart1 := ""
  coinbasePart2 := ""
  merkleBranch := [Bytes.toHex (List.replicate 32 7)]
  version := "20000000"
  bits := "180eadd8"
  timestamp := "0"
  clearJobs := false }

/-- Only an await of a promise depends on the lines that have arrived. -/
def ScriptCall.isFree : ScriptCall → Bool
  | .response _ => false
  | _ => true

theorem admits_of_isFree (me : ℕ) (state : ScriptState) (trace : ScriptTrace) (call : ScriptCall)
    (free : call.isFree = true) : scriptAdmits me state trace call (acceptingPool call) := by
  cases call with
  | response promise => cases free
  | publicKey bytes => exact fun _ => rfl
  | _ => trivial

/-- A task may start, or the promise of the resumed thread was settled with the line of the accepting pool. -/
def answersSettled (system : System ScriptState ScriptAnswer Thrown Unit ScriptTask) : Move ScriptTask → Bool
  | .start .connected => system.trace.all fun pair => !ScriptEvent.connects pair.2
  | .start _ => system.trace.any fun pair => ScriptEvent.connects pair.2
  | .resume index =>
      match system.threads[index]? with
      | some (.waiting (.response promise) _) =>
          system.state.settled promise == some (acceptingPool (.response promise))
      | _ => false

def allSettled (sha256 : Bytes → Bytes) (address : String) :
    System ScriptState ScriptAnswer Thrown Unit ScriptTask → List (Move ScriptTask) → Bool
  | _, [] => true
  | system, move :: moves => answersSettled system move &&
      allSettled sha256 address (system.move (scriptSemantics sha256 address) acceptingPool move) moves

section Accepted

variable {sha256 : Bytes → Bytes} {address : String}
  {system : System ScriptState ScriptAnswer Thrown Unit ScriptTask}

theorem lawful_of_answersSettled {move : Move ScriptTask} (settled : answersSettled system move = true) :
    system.Lawful (scriptSemantics sha256 address) acceptingPool move := by
  cases move with
  | start task =>
      cases task with
      | connected =>
          intro pair member
          simpa using List.all_eq_true.mp settled pair member
      | data line => exact List.any_eq_true.mp settled
      | versionMask mask => exact List.any_eq_true.mp settled
  | resume index =>
      intro request next waiting
      rw [answersSettled, waiting] at settled
      cases request with
      | response promise => exact beq_iff_eq.mp settled
      | _ => cases settled

theorem lawfulAll_of_allSettled {moves : List (Move ScriptTask)} (settled : allSettled sha256 address system moves = true) :
    System.LawfulAll (scriptSemantics sha256 address) acceptingPool system moves := by
  induction moves generalizing system with
  | nil => trivial
  | cons move moves ih =>
      obtain ⟨first, rest⟩ := Bool.and_eq_true_iff.mp settled
      exact ⟨lawful_of_answersSettled first, ih rest⟩

/-- A schedule of the accepting pool is a run of the script. -/
theorem steps_of_allSettled {moves : List (Move ScriptTask)}
    (settled : allSettled sha256 address system moves = true)
    (called : ∀ pair ∈ (moves.foldl (System.move (scriptSemantics sha256 address) acceptingPool) system).trace,
      pair.2.Calls fun call => call.isFree = true) :
    Relation.ReflTransGen (Step (scriptSemantics sha256 address)) system
      (moves.foldl (System.move (scriptSemantics sha256 address) acceptingPool) system) :=
  System.steps_moves admits_of_isFree (lawfulAll_of_allSettled settled) called

end Accepted

/-- The script opens its session, mines a job, and submits it. -/
def acceptedSchedule : List (Move ScriptTask) :=
  [.start .connected, .start (.data (acceptingPool (.response 0))), .resume 0,
    .start (.data (acceptingPool (.response 1))), .resume 0, .start (.data (acceptingPool (.response 2))), .resume 0,
    .start (.data firstNotify), .start (.data (acceptingPool (.response 3))), .resume 4]

def acceptedSystem : System ScriptState ScriptAnswer Thrown Unit ScriptTask :=
  acceptedSchedule.foldl (System.move (scriptSemantics id "miner") acceptingPool) ⟨{}, [], []⟩

theorem acceptedSystem_reachable : Reachable (scriptSemantics id "miner") {} acceptedSystem :=
  steps_of_allSettled (by decide +kernel) (by decide +kernel)

/-- The log line of an accepted submit. -/
def ScriptEvent.accepts : ScriptEvent → Bool
  | .called (.submitAccepted accepted) _ => accepted
  | _ => false

theorem script_correlates_responses_accepted :
    (acceptedSystem.trace.any fun pair => ScriptEvent.accepts pair.2) = true ∧ CorrelatesResponses acceptedSystem.trace :=
  ⟨by decide +kernel, script_correlates_responses id "miner" acceptedSystem_reachable⟩

end ComptoMiningPool.StratumClient
