import ComptoMiningPool.Async.Interleaving

/-
This file relates each thread of an interleaving to the events that it has left in the trace.
-/

namespace Async

variable {S C E V W L : Type} {A : C → Type}

/-- A thread follows its program along its own events, oldest first, from whatever states it reads. -/
inductive Follows : Program S A E V → History A L → Thread S A E V → Prop where
  | done {value} : Follows (.done value) [] (.ended (.ok value))
  | failed {error} : Follows (.failed error) [] (.ended (.error error))
  | read {next events thread} (state : S) (rest : Follows (next state) events thread) :
      Follows (.read next) events thread
  | store {stored next events thread} (rest : Follows next events thread) :
      Follows (.store stored next) events thread
  | call {request next events thread} (answer : A request) (rest : Follows (next answer) events thread) :
      Follows (.call request next) (.called request answer :: events) thread
  | waiting {request next} : Follows (.await request next) [.issued request] (.waiting request next)
  | await {request next events thread} (answer : A request) (rest : Follows (next answer) events thread) :
      Follows (.await request next) (.issued request :: .answered request answer :: events) thread

/-- A resumed thread goes on where it waited. -/
theorem Follows.resume {program : Program S A E V} {events later : History A L} {request : C}
    {next : A request → Program S A E V} {thread : Thread S A E V} {answer : A request}
    (follows : Follows program events (.waiting request next))
    (resumed : Follows (next answer) later thread) :
    Follows program (events ++ .answered request answer :: later) thread := by
  generalize waits : Thread.waiting request next = waiting at follows
  induction follows with
  | done => cases waits
  | failed => cases waits
  | read state rest ih => exact .read state (ih waits)
  | store rest ih => exact .store (ih waits)
  | call answer rest ih => exact .call answer (ih waits)
  | waiting =>
      cases waits
      exact .await answer resumed
  | await answer rest ih => exact .await answer (ih waits)

/-- A segment follows its program. -/
theorem Segment.follows {rules : Semantics S A E V L} {me : Nat} {program : Program S A E V}
    {state state' : S} {trace trace' : Trace A L} {thread : Thread S A E V}
    (segment : Segment rules me program state trace thread state' trace') :
    ∃ events, Follows program events thread ∧ own me trace' = events.reverse ++ own me trace := by
  induction segment with
  | done => exact ⟨[], .done, rfl⟩
  | failed => exact ⟨[], .failed, rfl⟩
  | read rest ih =>
      obtain ⟨events, follows, owned⟩ := ih
      exact ⟨events, .read _ follows, owned⟩
  | store rest ih =>
      obtain ⟨events, follows, owned⟩ := ih
      exact ⟨events, .store follows, owned⟩
  | call answer admitted rest ih =>
      obtain ⟨events, follows, owned⟩ := ih
      refine ⟨_ :: events, .call answer follows, ?_⟩
      rw [owned, own_cons_self, List.reverse_cons, List.append_assoc]
      rfl
  | await => exact ⟨_, .waiting, own_cons_self _ _ _⟩

/-- The events that one thread adds in a step leave another thread its own. -/
theorem own_of_other {me index : Nat} (different : index ≠ me) {added trace : Trace A L}
    (mine : ∀ pair ∈ added, pair.1 = index) (event : Event A L) :
    own me (added ++ (index, event) :: trace) = own me trace := by
  have started : Extends me trace ((index, event) :: trace) := extends_cons different
  exact (started.trans (extends_of_other different mine)).own_eq

/-- Each thread of a reachable system follows the program that it started. -/
theorem Reachable.follows {rules : Semantics S A E V L} {initial : S} {system : System S A E V L}
    (reached : Reachable rules initial system) {index : Nat} {thread : Thread S A E V}
    (found : system.threads[index]? = some thread) :
    ∃ label events, own index system.trace = events.reverse ++ [.started label] ∧
      Follows (rules.program label) events thread := by
  induction reached generalizing index thread with
  | refl => cases found
  | @tail before after reached step ih =>
      have tagged := Reachable.index_lt reached
      cases step with
      | disturb state' disturbed => exact ih found
      | start label enabled segment =>
          obtain ⟨added, grown, mine⟩ := segment.added
          rcases Nat.lt_trichotomy index before.threads.length with below | same | above
          · rw [List.getElem?_append_left below] at found
            obtain ⟨other, events, owned, follows⟩ := ih found
            refine ⟨other, events, ?_, follows⟩
            rw [← owned, grown]
            exact own_of_other (Nat.ne_of_gt below) mine _
          · subst same
            simp only [List.getElem?_concat_length, Option.some.injEq] at found
            subst found
            obtain ⟨events, follows, owned⟩ := segment.follows
            refine ⟨label, events, ?_, follows⟩
            have fresh : own before.threads.length before.trace = [] := by
              apply List.filterMap_eq_nil_iff.mpr
              intro pair member
              exact if_neg (Nat.ne_of_lt (tagged pair member))
            rw [owned, own_cons_self, fresh]
          · rw [List.getElem?_eq_none (by simp; omega)] at found
            cases found
      | resume me waiting answer admitted segment =>
          obtain ⟨added, grown, mine⟩ := segment.added
          obtain ⟨inside, _⟩ := List.getElem?_eq_some_iff.mp waiting
          by_cases same : me = index
          · subst same
            rw [List.getElem?_set_self inside, Option.some.injEq] at found
            subst found
            obtain ⟨label, events, owned, follows⟩ := ih waiting
            obtain ⟨later, resumed, owned'⟩ := segment.follows
            refine ⟨label, _, ?_, follows.resume resumed⟩
            rw [owned', own_cons_self, owned]
            simp
          · rw [List.getElem?_set_ne same] at found
            obtain ⟨label, events, owned, follows⟩ := ih found
            refine ⟨label, events, ?_, follows⟩
            rw [← owned, grown]
            exact own_of_other same mine _

theorem own_suffix (me : Nat) {before after : Trace A L} (suffix : before <:+ after) :
    own me before <:+ own me after :=
  suffix.filterMap _

/-- Each moment of a thread is a moment of the trace. -/
theorem exists_of_own_suffix {me : Nat} {event : Event A L} {past : History A L} {trace : Trace A L}
    (suffix : event :: past <:+ own me trace) :
    ∃ earlier, (me, event) :: earlier <:+ trace ∧ own me earlier = past := by
  induction trace with
  | nil => cases List.suffix_nil.mp suffix
  | cons pair trace ih =>
      obtain ⟨index, newest⟩ := pair
      by_cases mine : index = me
      · subst mine
        rw [own_cons_self] at suffix
        rcases List.suffix_cons_iff.mp suffix with equal | older
        · cases equal
          exact ⟨trace, List.suffix_refl _, rfl⟩
        · obtain ⟨earlier, inside, same⟩ := ih older
          exact ⟨earlier, inside.trans (List.suffix_cons _ _), same⟩
      · have other : own me ((index, newest) :: trace) = own me trace := by
          exact (extends_cons mine).own_eq
        rw [other] at suffix
        obtain ⟨earlier, inside, same⟩ := ih suffix
        exact ⟨earlier, inside.trans (List.suffix_cons _ _), same⟩

section Steps

variable {rules : Semantics S A E V L} {initial state state' : S} {trace trace' : Trace A L}
  {threads : List (Thread S A E V)} {thread : Thread S A E V}

/-- A program that is an await waits at once. -/
theorem Segment.await_of_eq {me : Nat} {program : Program S A E V} {request : C}
    {next : A request → Program S A E V} (equal : program = .await request next) :
    Segment rules me program state trace (.waiting request next) state ((me, .issued request) :: trace) := by
  rw [equal]
  exact .await

/-- A reachable system starts one more thread. -/
theorem Reachable.start (reached : Reachable rules initial ⟨state, trace, threads⟩) (label : L)
    (enabled : rules.mayStart state trace label)
    (segment : Segment rules threads.length (rules.program label) state
      ((threads.length, .started label) :: trace) thread state' trace') :
    Reachable rules initial ⟨state', trace', threads ++ [thread]⟩ :=
  reached.tail (.start label enabled segment)

/-- A reachable system resumes one thread that waits. -/
theorem Reachable.resume (reached : Reachable rules initial ⟨state, trace, threads⟩) (index : Nat)
    {request : C} {next : A request → Program S A E V}
    (waiting : threads[index]? = some (.waiting request next)) (answer : A request)
    (admitted : rules.admits index state trace request answer)
    (segment : Segment rules index (next answer) state ((index, .answered request answer) :: trace)
      thread state' trace') :
    Reachable rules initial ⟨state', trace', threads.set index thread⟩ :=
  reached.tail (.resume index waiting answer admitted segment)

end Steps

/-- The newest event of the thread is a request without its answer. -/
def Awaits (me : Nat) (trace : Trace A L) : Prop :=
  ∃ request, (own me trace).head? = some (.issued request)

theorem awaits_cons_self (me : Nat) (request : C) (trace : Trace A L) :
    Awaits me ((me, .issued request) :: trace) :=
  ⟨request, by rw [own_cons_self]; rfl⟩

theorem Extends.awaits_iff {me : Nat} {before after : Trace A L} (extension : Extends me before after) :
    Awaits me after ↔ Awaits me before := by
  unfold Awaits
  rw [extension.own_eq]

/-- The last event of a thread that has ended is no request. -/
theorem Follows.getLast?_ended {program : Program S A E V} {events : History A L} {result : Except E V}
    (follows : Follows program events (.ended result)) (request : C) :
    events.getLast? ≠ some (.issued request) := by
  generalize ends : Thread.ended result = ended at follows
  induction follows with
  | done => simp
  | failed => simp
  | read state rest ih => exact ih ends
  | store rest ih => exact ih ends
  | @call request' next events thread answer rest ih =>
      cases events with
      | nil => simp
      | cons event events => simpa using ih ends
  | waiting => cases ends
  | @await request' next events thread answer rest ih =>
      cases events with
      | nil => simp
      | cons event events => simpa using ih ends

/-- The last event of a thread that waits is its request. -/
theorem Follows.getLast?_waiting {program : Program S A E V} {events : History A L} {request : C}
    {next : A request → Program S A E V} (follows : Follows program events (.waiting request next)) :
    events.getLast? = some (.issued request) := by
  generalize waits : Thread.waiting request next = waiting at follows
  induction follows with
  | done => cases waits
  | failed => cases waits
  | read state rest ih => exact ih waits
  | store rest ih => exact ih waits
  | call answer rest ih => rw [List.getLast?_cons, ih waits]; rfl
  | waiting =>
      cases waits
      rfl
  | await answer rest ih => rw [List.getLast?_cons, List.getLast?_cons, ih waits]; rfl

/-- The newest own event of a waiting thread is its request. -/
theorem Reachable.head?_of_waiting {rules : Semantics S A E V L} {initial : S} {system : System S A E V L}
    (reached : Reachable rules initial system) {index : Nat} {request : C} {next : A request → Program S A E V}
    (waits : system.threads[index]? = some (.waiting request next)) :
    (own index system.trace).head? = some (.issued request) := by
  obtain ⟨label, events, owned, follows⟩ := reached.follows waits
  rw [owned, List.head?_append, List.head?_reverse, follows.getLast?_waiting]
  rfl

/-- A thread that has ended does not wait. -/
theorem Reachable.not_awaits {rules : Semantics S A E V L} {initial : S} {system : System S A E V L}
    (reached : Reachable rules initial system) {index : Nat} {result : Except E V}
    (ended : system.threads[index]? = some (.ended result)) : ¬ Awaits index system.trace := by
  obtain ⟨label, events, owned, follows⟩ := reached.follows ended
  rintro ⟨request, newest⟩
  rw [owned, List.head?_append, List.head?_reverse] at newest
  cases last : events.getLast? with
  | none =>
      rw [last] at newest
      cases newest
  | some event =>
      rw [last] at newest
      exact follows.getLast?_ended request (last.trans newest)

/-- An unfailing program has no failure on any path. -/
def Unfailing : Program S A E V → Prop
  | .done _ => True
  | .failed _ => False
  | .read next => ∀ state, Unfailing (next state)
  | .store _ next => Unfailing next
  | .call _ next => ∀ answer, Unfailing (next answer)
  | .await _ next => ∀ answer, Unfailing (next answer)

section Unfailing

theorem Unfailing.bind {program : Program S A E V} {rest : V → Program S A E W}
    (first : Unfailing program) (second : ∀ value, Unfailing (rest value)) :
    Unfailing (program.bind rest) := by
  induction program with
  | done value => exact second value
  | failed error => exact first.elim
  | read next ih => exact fun state => ih state (first state)
  | store stored next ih => exact ih first
  | call request next ih => exact fun answer => ih answer (first answer)
  | await request next ih => exact fun answer => ih answer (first answer)

/-- A handler that never fails catches every failure of its program. -/
theorem unfailing_attempt {program : Program S A E V} {handler : E → Program S A E V}
    (handles : ∀ error, Unfailing (handler error)) : Unfailing (program.attempt handler) := by
  induction program with
  | done value => trivial
  | failed error => exact handles error
  | read next ih => exact ih
  | store stored next ih => exact ih
  | call request next ih => exact ih
  | await request next ih => exact ih

theorem Unfailing.joined {program : Program S A E V} {turn : C} (unfailing : Unfailing program) :
    Unfailing (program.joined turn) := by
  induction program with
  | done value => exact fun _ => trivial
  | failed error => exact unfailing.elim
  | read next ih => exact fun state => ih state (unfailing state)
  | store stored next ih => exact ih unfailing
  | call request next ih => exact fun answer => ih answer (unfailing answer)
  | await request next ih => exact fun answer => ih answer (unfailing answer)

/-- A thread of an unfailing program ends with a value. -/
theorem Follows.ended_ok {program : Program S A E V} {events : History A L} {result : Except E V}
    (follows : Follows program events (.ended result)) (unfailing : Unfailing program) :
    ∃ value, result = .ok value := by
  generalize ends : Thread.ended result = ended at follows
  induction follows with
  | done =>
      cases ends
      exact ⟨_, rfl⟩
  | failed => exact unfailing.elim
  | read state rest ih => exact ih (unfailing state) ends
  | store rest ih => exact ih unfailing ends
  | call answer rest ih => exact ih (unfailing answer) ends
  | waiting => cases ends
  | await answer rest ih => exact ih (unfailing answer) ends

/-- The end of an unfailing program is reached with a value. -/
theorem wp_of_unfailing {contract : Contract S A L} {me : Nat} {program : Program S A E V}
    {post : Post S A E V L} {state : S} {trace : Trace A L} (unfailing : Unfailing program)
    (holds : wp contract me program post state trace) :
    wp contract me program
      (fun result state trace => (∃ value, result = .ok value) ∧ post result state trace) state trace := by
  induction program generalizing state trace with
  | done value => exact ⟨⟨value, rfl⟩, holds⟩
  | failed error => exact unfailing.elim
  | read next ih => exact ih state (unfailing state) holds
  | store stored next ih => exact ⟨holds.1, ih unfailing holds.2⟩
  | call request next ih =>
      intro answer admitted
      have after := holds answer admitted
      exact ⟨after.1, ih answer (unfailing answer) after.2⟩
  | await request next ih =>
      refine ⟨holds.1, holds.2.1, ?_⟩
      intro state' trace' relied extension kept answer admitted
      have resumed := holds.2.2 state' trace' relied extension kept answer admitted
      exact ⟨resumed.1, ih answer (unfailing answer) resumed.2⟩

end Unfailing

/-- A program makes allowed calls only, whatever it stores. -/
def Makes (allowed : C → Prop) : Program S A E V → Prop
  | .done _ => True
  | .failed _ => True
  | .read next => ∀ state, Makes allowed (next state)
  | .store _ next => Makes allowed next
  | .call request next => allowed request ∧ ∀ answer, Makes allowed (next answer)
  | .await request next => allowed request ∧ ∀ answer, Makes allowed (next answer)

section Makes

variable {allowed wide : C → Prop}

theorem Confined.makes {program : Program S A E V} (confined : Confined allowed program)
    (implies : ∀ request, allowed request → wide request) : Makes wide program := by
  induction program with
  | done value => trivial
  | failed error => trivial
  | read next ih => exact fun state => ih state (confined state)
  | store stored next ih => exact confined.elim
  | call request next ih => exact ⟨implies request confined.1, fun answer => ih answer (confined.2 answer)⟩
  | await request next ih => exact ⟨implies request confined.1, fun answer => ih answer (confined.2 answer)⟩

theorem Makes.bind {program : Program S A E V} {rest : V → Program S A E W}
    (first : Makes allowed program) (second : ∀ value, Makes allowed (rest value)) :
    Makes allowed (program.bind rest) := by
  induction program with
  | done value => exact second value
  | failed error => trivial
  | read next ih => exact fun state => ih state (first state)
  | store stored next ih => exact ih first
  | call request next ih => exact ⟨first.1, fun answer => ih answer (first.2 answer)⟩
  | await request next ih => exact ⟨first.1, fun answer => ih answer (first.2 answer)⟩

theorem Makes.joined {program : Program S A E V} {turn : C} (first : Makes allowed program)
    (next : allowed turn) : Makes allowed (program.joined turn) := by
  induction program with
  | done value => exact ⟨next, fun _ => trivial⟩
  | failed error => exact ⟨next, fun _ => trivial⟩
  | read next ih => exact fun state => ih state (first state)
  | store stored next ih => exact ih first
  | call request next ih => exact ⟨first.1, fun answer => ih answer (first.2 answer)⟩
  | await request next ih => exact ⟨first.1, fun answer => ih answer (first.2 answer)⟩

theorem Makes.attempt {program : Program S A E V} {handler : E → Program S A E V}
    (first : Makes allowed program) (second : ∀ error, Makes allowed (handler error)) :
    Makes allowed (program.attempt handler) := by
  induction program with
  | done value => trivial
  | failed error => exact second error
  | read next ih => exact fun state => ih state (first state)
  | store stored next ih => exact ih first
  | call request next ih => exact ⟨first.1, fun answer => ih answer (first.2 answer)⟩
  | await request next ih => exact ⟨first.1, fun answer => ih answer (first.2 answer)⟩

theorem makes_load {rest : S → Program S A E V} (makes : ∀ state, Makes allowed (rest state)) :
    Makes allowed (Program.load.bind rest) := makes

theorem makes_ofExcept (result : Except E V) : Makes allowed (.ofExcept result : Program S A E V) := by
  cases result with
  | error error => trivial
  | ok value => trivial

/-- Each answer of a thread belongs to an allowed request. -/
theorem Follows.allowed_of_answered {program : Program S A E V} {events : History A L}
    {thread : Thread S A E V} (follows : Follows program events thread) (makes : Makes allowed program)
    {request : C} {answer : A request} (member : .answered request answer ∈ events) : allowed request := by
  induction follows with
  | done => cases member
  | failed => cases member
  | read state rest ih => exact ih (makes state) member
  | store rest ih => exact ih makes member
  | call answer rest ih =>
      rcases List.mem_cons.mp member with equal | member
      · cases equal
      · exact ih (makes.2 answer) member
  | waiting =>
      rcases List.mem_cons.mp member with equal | member
      · cases equal
      · cases member
  | await answer rest ih =>
      rcases List.mem_cons.mp member with equal | member
      · cases equal
      · rcases List.mem_cons.mp member with equal | member
        · cases equal
          exact makes.1
        · exact ih (makes.2 answer) member

/-- A thread waits for allowed requests only. -/
theorem Follows.allowed_of_waiting {program : Program S A E V} {events : History A L} {request : C}
    {next : A request → Program S A E V} (follows : Follows program events (.waiting request next))
    (makes : Makes allowed program) : allowed request := by
  generalize waits : Thread.waiting request next = waiting at follows
  induction follows with
  | done => cases waits
  | failed => cases waits
  | read state rest ih => exact ih (makes state) waits
  | store rest ih => exact ih makes waits
  | call answer rest ih => exact ih (makes.2 answer) waits
  | waiting =>
      cases waits
      exact makes.1
  | await answer rest ih => exact ih (makes.2 answer) waits

end Makes

/-- A segment answers no request. -/
theorem Segment.mem_of_answered {rules : Semantics S A E V L} {me : Nat} {program : Program S A E V}
    {state state' : S} {trace trace' : Trace A L} {thread : Thread S A E V}
    (segment : Segment rules me program state trace thread state' trace') {index : Nat} {request : C}
    {answer : A request} (member : (index, .answered request answer) ∈ trace') :
    (index, .answered request answer) ∈ trace := by
  induction segment with
  | done => exact member
  | failed => exact member
  | read rest ih => exact ih member
  | store rest ih => exact ih member
  | call answer' admitted rest ih =>
      rcases List.mem_cons.mp (ih member) with equal | older
      · cases equal
      · exact older
  | await =>
      rcases List.mem_cons.mp member with equal | older
      · cases equal
      · exact older

/-- A thread starts once. -/
theorem Follows.started_not_mem {program : Program S A E V} {events : History A L}
    {thread : Thread S A E V} (follows : Follows program events thread) (label : L) :
    Event.started label ∉ events := by
  induction follows with
  | done => simp
  | failed => simp
  | read state rest ih => exact ih
  | store rest ih => exact ih
  | call answer rest ih => simpa using ih
  | waiting => simp
  | await answer rest ih => simpa using ih

/-- An accepted trace was accepted at each earlier moment. -/
theorem Accepted.of_suffix {monitor : Trace A L → Nat → Event A L → Prop} {before trace : Trace A L}
    (accepted : Accepted monitor trace) (suffix : before <:+ trace) : Accepted monitor before :=
  fun index event earlier inside => accepted index event earlier (inside.trans suffix)

/-- A confined program keeps an assertion of its thread that holds between its awaits, when the
assertion gives the invariant at each request and returns with each answer. -/
theorem wp_of_confined_between {contract : Contract S A L} {me : Nat} {allowed : C → Prop}
    {assertion : S → Trace A L → Prop} {program : Program S A E V} {state : S} {trace : Trace A L}
    (confined : Confined allowed program) (holds : assertion state trace)
    (called : ∀ {state trace request} answer, assertion state trace → allowed request →
      contract.monitor trace me (.called request answer) ∧
        assertion state ((me, .called request answer) :: trace))
    (awaited : ∀ {state trace request}, assertion state trace → allowed request →
      contract.monitor trace me (.issued request) ∧ contract.invariant state ((me, .issued request) :: trace) ∧
        ∀ {state' trace'} answer, contract.rely state state' →
          Extends me ((me, .issued request) :: trace) trace' → contract.invariant state' trace' →
            contract.monitor trace' me (.answered request answer) ∧
              assertion state' ((me, .answered request answer) :: trace')) :
    wp contract me program (fun _ => assertion) state trace := by
  induction program generalizing state trace with
  | done value => exact holds
  | failed error => exact holds
  | read next ih => exact ih state (confined state) holds
  | store stored next ih => exact confined.elim
  | call request next ih =>
      intro answer _
      have after := called answer holds confined.1
      exact ⟨after.1, ih answer (confined.2 answer) after.2⟩
  | await request next ih =>
      have waiting := awaited holds confined.1
      refine ⟨waiting.1, waiting.2.1, ?_⟩
      intro state' trace' relied extension kept answer _
      have resumed := waiting.2.2 answer relied extension kept
      exact ⟨resumed.1, ih answer (confined.2 answer) resumed.2⟩

/-- A step of a thread begins with the start of its program or with the answer that it awaited. -/
def Event.resumes : Event A L → Bool
  | .started _ => true
  | .answered _ _ => true
  | _ => false

/-- The trace as the newest step found it. -/
def beforeStep (trace : Trace A L) : Trace A L := (trace.dropWhile fun pair => !pair.2.resumes).tail

section Resumption

variable {me : Nat} {trace : Trace A L} {event : Event A L}

theorem beforeStep_cons_of_resumes (resumes : event.resumes = true) :
    beforeStep ((me, event) :: trace) = trace := by
  simp [beforeStep, resumes]

theorem beforeStep_cons_of_not_resumes (continues : event.resumes = false) :
    beforeStep ((me, event) :: trace) = beforeStep trace := by
  simp [beforeStep, continues]

theorem beforeStep_subset (trace : Trace A L) : beforeStep trace ⊆ trace :=
  List.Subset.trans (List.tail_subset _) (List.dropWhile_suffix _).subset

/-- A segment adds no event that begins a step. -/
theorem Segment.added_continues {rules : Semantics S A E V L} {program : Program S A E V}
    {state state' : S} {trace' : Trace A L} {thread : Thread S A E V}
    (segment : Segment rules me program state trace thread state' trace') :
    ∃ added : Trace A L, trace' = added ++ trace ∧ ∀ pair ∈ added, pair.2.resumes = false := by
  induction segment with
  | done => exact ⟨[], rfl, by simp⟩
  | failed => exact ⟨[], rfl, by simp⟩
  | read rest ih => exact ih
  | store rest ih => exact ih
  | call answer admitted rest ih =>
      obtain ⟨added, rfl, continues⟩ := ih
      refine ⟨added ++ [(me, .called _ answer)], by simp, ?_⟩
      intro pair member
      rcases List.mem_append.mp member with member | member
      · exact continues pair member
      · rw [List.mem_singleton.mp member]
        rfl
  | await =>
      refine ⟨[_], rfl, ?_⟩
      intro pair member
      rw [List.mem_singleton.mp member]
      rfl

/-- Each event that a step adds after its first one was added to the trace that the step found. -/
theorem Step.beforeStep_eq {rules : Semantics S A E V L} {before after : System S A E V L}
    (step : Step rules before after) {added : Trace A L} (grown : after.trace = added ++ before.trace) :
    ∀ later earlier, added = later ++ (me, event) :: earlier → event.resumes = false →
      beforeStep (earlier ++ before.trace) = before.trace := by
  have begun : ∀ {first : Event A L} {index : Nat} {segment : Trace A L},
      after.trace = segment ++ (index, first) :: before.trace → first.resumes = true →
      (∀ pair ∈ segment, pair.2.resumes = false) →
      ∀ later earlier, added = later ++ (me, event) :: earlier → event.resumes = false →
        beforeStep (earlier ++ before.trace) = before.trace := by
    intro first index segment whole begins continues later earlier split quiet
    have joined : (segment ++ [(index, first)]) ++ before.trace =
        (later ++ (me, event) :: earlier) ++ before.trace := by
      rw [← split, ← grown, whole, List.append_assoc]
      rfl
    have same := List.append_cancel_right joined
    rcases List.eq_nil_or_concat earlier with rfl | ⟨middle, last, rfl⟩
    · obtain ⟨_, equal⟩ := List.append_inj' same rfl
      cases equal
      rw [begins] at quiet
      cases quiet
    · rw [List.concat_eq_append, ← List.cons_append, ← List.append_assoc] at same
      obtain ⟨rfl, equal⟩ := List.append_inj' same rfl
      cases equal
      rw [List.concat_eq_append, List.append_assoc]
      have dropped : ∀ middle : Trace A L, (∀ pair ∈ middle, pair.2.resumes = false) →
          beforeStep (middle ++ (index, first) :: before.trace) = before.trace := by
        intro middle
        induction middle with
        | nil => exact fun _ => beforeStep_cons_of_resumes begins
        | cons pair middle ih =>
            intro quiet
            rw [List.cons_append, beforeStep_cons_of_not_resumes (quiet pair List.mem_cons_self)]
            exact ih fun pair member => quiet pair (List.mem_cons_of_mem _ member)
      apply dropped
      intro pair member
      apply continues pair
      exact List.mem_append_right _ (List.mem_cons_of_mem _ member)
  cases step with
  | start label enabled segment =>
      obtain ⟨segment', whole, continues⟩ := segment.added_continues
      exact begun whole rfl continues
  | resume index waiting answer admitted segment =>
      obtain ⟨segment', whole, continues⟩ := segment.added_continues
      exact begun whole rfl continues
  | disturb state' disturbed =>
      intro later earlier split _
      have nothing : added = [] := List.append_left_eq_self.mp grown.symm
      rw [nothing] at split
      cases later <;> cases split

end Resumption

/-- Each answer of a trace was admitted after the events that precede it. -/
def Semantics.Admitted (rules : Semantics S A E V L) (earlier : Trace A L) (index : Nat) : Event A L → Prop
  | .called request answer => ∃ state, rules.admits index state earlier request answer
  | .answered request answer => ∃ state, rules.admits index state earlier request answer
  | _ => True

section Moments

variable {rules : Semantics S A E V L} {initial : S}

theorem Segment.admitted {me : Nat} {program : Program S A E V} {state state' : S} {trace trace' : Trace A L}
    {thread : Thread S A E V} (segment : Segment rules me program state trace thread state' trace')
    (accepted : Accepted rules.Admitted trace) : Accepted rules.Admitted trace' := by
  induction segment with
  | done => exact accepted
  | failed => exact accepted
  | read rest ih => exact ih accepted
  | store rest ih => exact ih accepted
  | @call request next state trace thread state' trace' answer admitted rest ih =>
      exact ih (accepted_cons.mpr ⟨⟨state, admitted⟩, accepted⟩)
  | await => exact accepted_cons.mpr ⟨trivial, accepted⟩

/-- The rules have admitted each answer of a reachable system. -/
theorem Reachable.admitted {system : System S A E V L} (reached : Reachable rules initial system) :
    Accepted rules.Admitted system.trace := by
  induction reached with
  | refl => exact accepted_nil _
  | @tail before after _ step ih =>
      cases step with
      | start label enabled segment => exact segment.admitted (accepted_cons.mpr ⟨trivial, ih⟩)
      | resume index waiting answer admitted segment =>
          exact segment.admitted (accepted_cons.mpr ⟨⟨before.state, admitted⟩, ih⟩)
      | disturb state' disturbed => exact ih

/-- A segment answers no request, so each answer was there when it began. -/
theorem Segment.suffix_of_answered {me : Nat} {program : Program S A E V} {state state' : S}
    {trace trace' : Trace A L} {thread : Thread S A E V}
    (segment : Segment rules me program state trace thread state' trace') {index : Nat} {request : C}
    {answer : A request} {earlier : Trace A L}
    (suffix : (index, .answered request answer) :: earlier <:+ trace') :
    (index, .answered request answer) :: earlier <:+ trace := by
  induction segment with
  | done => exact suffix
  | failed => exact suffix
  | read rest ih => exact ih suffix
  | store rest ih => exact ih suffix
  | call answer' admitted rest ih =>
      rcases List.suffix_cons_iff.mp (ih suffix) with equal | older
      · cases equal
      · exact older
  | await =>
      rcases List.suffix_cons_iff.mp suffix with equal | older
      · cases equal
      · exact older

/-- Each answer to an await was admitted in an earlier reachable system. -/
theorem Reachable.exists_answered {system : System S A E V L} (reached : Reachable rules initial system)
    {index : Nat} {request : C} {answer : A request} {earlier : Trace A L}
    (suffix : (index, .answered request answer) :: earlier <:+ system.trace) :
    ∃ state threads, Reachable rules initial ⟨state, earlier, threads⟩ ∧
      rules.admits index state earlier request answer := by
  induction reached with
  | refl =>
      have empty := List.suffix_nil.mp suffix
      cases empty
  | @tail before after reached step ih =>
      cases step with
      | start label enabled segment =>
          rcases List.suffix_cons_iff.mp (segment.suffix_of_answered suffix) with equal | older
          · cases equal
          · exact ih older
      | resume index' waiting answer' admitted segment =>
          rcases List.suffix_cons_iff.mp (segment.suffix_of_answered suffix) with equal | older
          · cases equal
            exact ⟨before.state, before.threads, reached, admitted⟩
          · exact ih older
      | disturb state' disturbed => exact ih suffix

/-- A request ends its segment. -/
theorem Segment.eq_of_issued {me : Nat} {program : Program S A E V} {state state' : S} {trace trace' : Trace A L}
    {thread : Thread S A E V} (segment : Segment rules me program state trace thread state' trace') {index : Nat}
    {request : C} {earlier : Trace A L} (suffix : (index, .issued request) :: earlier <:+ trace') :
    (index, .issued request) :: earlier <:+ trace ∨ trace' = (index, .issued request) :: earlier := by
  induction segment with
  | done => exact .inl suffix
  | failed => exact .inl suffix
  | read rest ih => exact ih suffix
  | store rest ih => exact ih suffix
  | call answer admitted rest ih =>
      rcases ih suffix with within | newest
      · rcases List.suffix_cons_iff.mp within with equal | older
        · cases equal
        · exact .inl older
      · exact .inr newest
  | await =>
      rcases List.suffix_cons_iff.mp suffix with equal | older
      · exact .inr equal.symm
      · exact .inl older

/-- A system was reachable when its newest event was a given request. -/
theorem Reachable.exists_issued {system : System S A E V L} (reached : Reachable rules initial system)
    {index : Nat} {request : C} {earlier : Trace A L} (suffix : (index, .issued request) :: earlier <:+ system.trace) :
    ∃ state threads, Reachable rules initial ⟨state, (index, .issued request) :: earlier, threads⟩ := by
  induction reached with
  | refl => cases List.suffix_nil.mp suffix
  | @tail before after reached step ih =>
      have inside : (index, .issued request) :: earlier <:+ before.trace ∨
          after.trace = (index, .issued request) :: earlier := by
        cases step with
        | start label enabled segment =>
            rcases segment.eq_of_issued suffix with within | newest
            · rcases List.suffix_cons_iff.mp within with equal | older
              · cases equal
              · exact .inl older
            · exact .inr newest
        | resume index' waiting answer admitted segment =>
            rcases segment.eq_of_issued suffix with within | newest
            · rcases List.suffix_cons_iff.mp within with equal | older
              · cases equal
              · exact .inl older
            · exact .inr newest
        | disturb state' disturbed => exact .inl suffix
      rcases inside with older | newest
      · exact ih older
      · refine ⟨after.state, after.threads, ?_⟩
        rw [← newest]
        exact Relation.ReflTransGen.tail reached step

/-- A thread starts one program. -/
theorem Reachable.started_unique {system : System S A E V L} (reached : Reachable rules initial system)
    {me : Nat} {first second : L} (one : (me, .started first) ∈ system.trace)
    (two : (me, .started second) ∈ system.trace) : first = second := by
  have inside := Reachable.index_lt reached (me, .started first) one
  obtain ⟨label, events, owned, follows⟩ := reached.follows (List.getElem?_eq_getElem inside)
  have same : ∀ other, (me, .started other) ∈ system.trace → other = label := by
    intro other member
    rw [← mem_own, owned] at member
    rcases List.mem_append.mp member with later | start
    · exact absurd (List.mem_reverse.mp later) (follows.started_not_mem other)
    · cases List.mem_singleton.mp start
      rfl
  exact (same first one).trans (same second two).symm

end Moments

end Async
