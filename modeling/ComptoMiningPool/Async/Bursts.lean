import ComptoMiningPool.Async.Schedule
import ComptoMiningPool.Async.Sequential

/-
This file delivers programs to a system in events. It proves that programs which never overlap run as if
each one ran alone.
-/

namespace Async

variable {S C E V L : Type} {A : C → Type}

/-- An idle system waits for nothing. -/
def System.Idle (system : System S A E V L) : Prop :=
  ∀ thread ∈ system.threads, ∃ result, thread = .ended result

/-- One event starts its programs in order, with no other step between them. -/
inductive Starts (rules : Semantics S A E V L) : List L → System S A E V L → System S A E V L → Prop where
  | nil {system} : Starts rules [] system system
  | cons {label labels system thread state' trace' last}
      (enabled : rules.mayStart system.state system.trace label)
      (segment : Segment rules system.threads.length (rules.program label) system.state
        ((system.threads.length, .started label) :: system.trace) thread state' trace')
      (rest : Starts rules labels ⟨state', trace', system.threads ++ [thread]⟩ last) :
      Starts rules (label :: labels) system last

/-- One waiting thread goes on. -/
inductive Resumes (rules : Semantics S A E V L) : System S A E V L → System S A E V L → Prop where
  | resume {system request next thread state' trace'} (index : Nat)
      (waiting : system.threads[index]? = some (.waiting request next)) (answer : A request)
      (admitted : rules.admits index system.state system.trace request answer)
      (segment : Segment rules index (next answer) system.state
        ((index, .answered request answer) :: system.trace) thread state' trace') :
      Resumes rules system ⟨state', trace', system.threads.set index thread⟩

/-- The programs that start until the system is idle again form one burst. An event may come at any time. -/
inductive Delivers (rules : Semantics S A E V L) (initial : S) : List (List L) → System S A E V L → Prop where
  | nil : Delivers rules initial [] ⟨initial, [], []⟩
  | resume {bursts system system'} (delivers : Delivers rules initial bursts system)
      (resumes : Resumes rules system system') : Delivers rules initial bursts system'
  | event {bursts labels system system'} (delivers : Delivers rules initial bursts system)
      (idle : system.Idle) (starts : Starts rules labels system system') :
      Delivers rules initial (bursts ++ [labels]) system'
  | overlap {bursts burst labels system system'} (delivers : Delivers rules initial (bursts ++ [burst]) system)
      (running : ¬ system.Idle) (starts : Starts rules labels system system') :
      Delivers rules initial (bursts ++ [burst ++ labels]) system'

section Reach

variable {rules : Semantics S A E V L}

theorem Starts.steps {labels : List L} {before after : System S A E V L}
    (starts : Starts rules labels before after) : Relation.ReflTransGen (Step rules) before after := by
  induction starts with
  | nil => exact .refl
  | cons enabled segment rest ih => exact .head (.start _ enabled segment) ih

theorem Resumes.step {before after : System S A E V L} (resumes : Resumes rules before after) :
    Step rules before after := by
  cases resumes with
  | resume index waiting answer admitted segment => exact .resume index waiting answer admitted segment

/-- Delivered programs are an interleaving. -/
theorem Delivers.reachable {initial : S} {bursts : List (List L)} {system : System S A E V L}
    (delivers : Delivers rules initial bursts system) : Reachable rules initial system := by
  induction delivers with
  | nil => exact .refl
  | resume _ resumes ih => exact ih.tail resumes.step
  | event _ _ starts ih => exact Relation.ReflTransGen.trans ih starts.steps
  | overlap _ _ starts ih => exact Relation.ReflTransGen.trans ih starts.steps

theorem Delivers.resumeAll {initial : S} {bursts : List (List L)} {before after : System S A E V L}
    (delivers : Delivers rules initial bursts before) (resumes : Relation.ReflTransGen (Resumes rules) before after) :
    Delivers rules initial bursts after := by
  induction resumes with
  | refl => exact delivers
  | tail _ resumed ih => exact ih.resume resumed

end Reach

theorem Event.Asks.calls {good : C → Prop} {event : Event A L} (asks : event.Asks good) : event.Calls good := by
  cases event with
  | called request answer => exact asks
  | answered request answer => trivial
  | started label => trivial
  | issued request => trivial

section Moves

variable {rules : Semantics S A E V L} {environment : (request : C) → A request} {good : C → Prop}

/-- Moves that start programs form one event. -/
theorem Starts.of_moves
    (answers : ∀ me state trace request, good request → rules.admits me state trace request (environment request))
    {labels : List L} (enabled : ∀ label ∈ labels, ∀ state trace, rules.mayStart state trace label)
    (system : System S A E V L)
    (asked : ∀ pair ∈ ((labels.map Move.start).foldl (System.move rules environment) system).trace,
      pair.2.Asks good) :
    Starts rules labels system ((labels.map Move.start).foldl (System.move rules environment) system) := by
  induction labels generalizing system with
  | nil => exact .nil
  | cons label labels ih =>
      have rest := ih (fun other member => enabled other (List.mem_cons_of_mem _ member))
        (system.move rules environment (.start label)) asked
      have earlier := @System.trace_suffix_moves _ _ _ _ _ _ rules environment
        (system.move rules environment (.start label)) (labels.map Move.start)
      refine .cons (enabled label List.mem_cons_self _ _) (Program.segment_advance (answers _) _ _ _ ?_) rest
      intro pair member
      exact (asked pair (earlier.subset (List.mem_append_left _ member))).calls

/-- A move that resumes a thread lets it go on, or it changes nothing. -/
theorem Resumes.of_move
    (answers : ∀ me state trace request, good request → rules.admits me state trace request (environment request))
    (index : Nat) (system : System S A E V L)
    (asked : ∀ pair ∈ (system.move rules environment (.resume index)).trace, pair.2.Asks good) :
    Relation.ReflTransGen (Resumes rules) system (system.move rules environment (.resume index)) := by
  rcases waiting : system.threads[index]? with _ | (⟨request, next⟩ | result)
  · simp only [System.move, waiting]
    exact .refl
  · simp only [System.move, waiting] at asked ⊢
    have answered := asked _ (List.mem_append_right _ List.mem_cons_self)
    refine .single (.resume index waiting _ (answers _ _ _ _ answered) (Program.segment_advance (answers _) _ _ _ ?_))
    intro pair member
    exact (asked pair (List.mem_append_left _ member)).calls
  · simp only [System.move, waiting]
    exact .refl

/-- Moves that resume threads only let them go on. -/
theorem Resumes.of_moves
    (answers : ∀ me state trace request, good request → rules.admits me state trace request (environment request))
    (indices : List Nat) (system : System S A E V L)
    (asked : ∀ pair ∈ ((indices.map Move.resume).foldl (System.move rules environment) system).trace,
      pair.2.Asks good) :
    Relation.ReflTransGen (Resumes rules) system
      ((indices.map Move.resume).foldl (System.move rules environment) system) := by
  induction indices generalizing system with
  | nil => exact .refl
  | cons index indices ih =>
      have earlier := @System.trace_suffix_moves _ _ _ _ _ _ rules environment
        (system.move rules environment (.resume index)) (indices.map Move.resume)
      have first := Resumes.of_move answers index system fun pair member => asked pair (earlier.subset member)
      exact Relation.ReflTransGen.trans first (ih _ asked)

end Moves

/-- Answers that depend on the thread, on the state, and on the own events of the thread. -/
abbrev Answers (S : Type) {C : Type} (A : C → Type) (L : Type) :=
  Nat → S → History A L → (request : C) → A request

/-- The environment may give no other answers. -/
def Semantics.AnsweredBy (rules : Semantics S A E V L) (answers : Answers S A L) : Prop :=
  ∀ me state trace request answer, rules.admits me state trace request answer →
    answer = answers me state (own me trace) request

/-- A run without other threads. Its answers see the state. -/
def Program.solo (answers : S → History A L → (request : C) → A request) :
    Program S A E V → S → History A L → Run S A L E V
  | .done value, state, history => ⟨.ok value, state, history⟩
  | .failed error, state, history => ⟨.error error, state, history⟩
  | .read next, state, history => (next state).solo answers state history
  | .store stored next, _, history => next.solo answers stored history
  | .call request next, state, history =>
      let answer := answers state history request
      (next answer).solo answers state (.called request answer :: history)
  | .await request next, state, history =>
      let answer := answers state (.issued request :: history) request
      (next answer).solo answers state (.answered request answer :: .issued request :: history)

/-- A system runs one more program alone. -/
def System.alone (rules : Semantics S A E V L) (answers : Answers S A L) (system : System S A E V L)
    (label : L) : System S A E V L :=
  let me := system.threads.length
  let run := (rules.program label).solo (answers me) system.state [.started label]
  ⟨run.state, tagged me run.history ++ system.trace, system.threads ++ [.ended run.result]⟩

/-- The system after programs that run one after the other. -/
def System.oneByOne (rules : Semantics S A E V L) (answers : Answers S A L) (initial : S) (labels : List L) :
    System S A E V L :=
  labels.foldl (System.alone rules answers) ⟨initial, [], []⟩

section Solo

variable {rules : Semantics S A E V L} {answers : Answers S A L}

theorem own_tagged {me : Nat} (history : History A L) {base : Trace A L}
    (others : ∀ pair ∈ base, pair.1 ≠ me) : own me (tagged me history ++ base) = history := by
  have none : own me base = [] := by
    apply List.filterMap_eq_nil_iff.mpr
    intro pair member
    exact if_neg (others pair member)
  induction history with
  | nil => exact none
  | cons event history ih =>
      rw [tagged_cons, List.cons_append, own_cons_self, ih]

/-- A segment is a part of the run of its program alone. -/
theorem Segment.solo (answered : rules.AnsweredBy answers) {me : Nat} {base : Trace A L}
    (others : ∀ pair ∈ base, pair.1 ≠ me) {program : Program S A E V} {state state' : S}
    {trace trace' : Trace A L} {thread : Thread S A E V}
    (segment : Segment rules me program state trace thread state' trace') {history : History A L}
    (whole : trace = tagged me history ++ base) :
    ∃ history', trace' = tagged me history' ++ base ∧
      match thread with
      | .ended result => program.solo (answers me) state history = ⟨result, state', history'⟩
      | .waiting request next => program.solo (answers me) state history =
          (next (answers me state' history' request)).solo (answers me) state'
            (.answered request (answers me state' history' request) :: history') := by
  induction segment generalizing history with
  | done => exact ⟨history, whole, rfl⟩
  | failed => exact ⟨history, whole, rfl⟩
  | read rest ih => exact ih whole
  | store rest ih => exact ih whole
  | @call request next state trace thread state' trace' answer admitted rest ih =>
      subst whole
      have same := answered _ _ _ _ _ admitted
      rw [own_tagged history others] at same
      subst same
      exact @ih (.called request _ :: history) rfl
  | await =>
      subst whole
      exact ⟨.issued _ :: history, rfl, rfl⟩

theorem System.oneByOne_append (initial : S) (labels : List L) (label : L) :
    System.oneByOne rules answers initial (labels ++ [label]) =
      (System.oneByOne rules answers initial labels).alone rules answers label := by
  simp [System.oneByOne]

theorem System.oneByOne_tagged (initial : S) (labels : List L) :
    ∀ pair ∈ (System.oneByOne rules answers initial labels).trace,
      pair.1 < (System.oneByOne rules answers initial labels).threads.length := by
  induction labels using List.reverseRecOn with
  | nil => exact fun _ member => nomatch member
  | append_singleton labels label ih =>
      intro pair member
      rw [oneByOne_append] at member ⊢
      simp only [alone, List.length_append, List.length_singleton] at member ⊢
      rcases List.mem_append.mp member with mine | earlier
      · obtain ⟨event, _, rfl⟩ := List.mem_map.mp mine
        exact Nat.lt_succ_self _
      · exact Nat.lt_succ_of_lt (ih pair earlier)

theorem System.oneByOne_idle (initial : S) (labels : List L) :
    (System.oneByOne rules answers initial labels).Idle := by
  induction labels using List.reverseRecOn with
  | nil => exact fun _ member => nomatch member
  | append_singleton labels label ih =>
      intro thread member
      rw [oneByOne_append] at member
      rcases List.mem_append.mp member with earlier | newest
      · exact ih thread earlier
      · exact ⟨_, List.mem_singleton.mp newest⟩

/-- The last program of a system runs, and all programs before it have run one by one. -/
def RunsAlone (rules : Semantics S A E V L) (answers : Answers S A L) (initial : S) (bursts : List (List L))
    (system : System S A E V L) : Prop :=
  ∃ (front : List (List L)) (label : L) (request : C) (next : A request → Program S A E V) (state : S)
    (history : History A L), bursts = front ++ [[label]] ∧
      let before := System.oneByOne rules answers initial front.flatten
      let me := before.threads.length
      system = ⟨state, tagged me history ++ before.trace, before.threads ++ [.waiting request next]⟩ ∧
      (rules.program label).solo (answers me) before.state [.started label] =
        (next (answers me state history request)).solo (answers me) state
          (.answered request (answers me state history request) :: history)

/-- After a segment the last program runs alone, or it has run alone to its end. -/
theorem alone_of_segment (answered : rules.AnsweredBy answers) {initial : S} {front : List (List L)} {label : L}
    {program : Program S A E V} {history : History A L} {state state' : S} {trace' : Trace A L}
    {thread : Thread S A E V}
    (before : System S A E V L) (isBefore : before = System.oneByOne rules answers initial front.flatten)
    (segment : Segment rules before.threads.length program state
      (tagged before.threads.length history ++ before.trace) thread state' trace')
    (part : (rules.program label).solo (answers before.threads.length) before.state [.started label] =
      program.solo (answers before.threads.length) state history) :
    (⟨state', trace', before.threads ++ [thread]⟩ : System S A E V L) =
        System.oneByOne rules answers initial (front ++ [[label]]).flatten ∨
      RunsAlone rules answers initial (front ++ [[label]]) ⟨state', trace', before.threads ++ [thread]⟩ := by
  have others : ∀ pair ∈ before.trace, pair.1 ≠ before.threads.length := by
    intro pair member
    subst isBefore
    exact (System.oneByOne_tagged initial front.flatten pair member).ne
  obtain ⟨history', rfl, rest⟩ := segment.solo answered others rfl
  cases thread with
  | ended result =>
      left
      rw [List.flatten_append, List.flatten_singleton, System.oneByOne_append, ← isBefore, System.alone, part,
        rest]
  | waiting request next =>
      right
      exact ⟨front, label, request, next, state', history', rfl, by subst isBefore; exact ⟨rfl, part.trans rest⟩⟩

/-- Only the last thread of a running system waits. -/
theorem waiting_last {before : System S A E V L} (idle : before.Idle) {running : Thread S A E V} {index : Nat}
    {request : C} {next : A request → Program S A E V}
    (waiting : (before.threads ++ [running])[index]? = some (.waiting request next)) :
    index = before.threads.length ∧ running = .waiting request next := by
  rcases Nat.lt_trichotomy index before.threads.length with below | same | above
  · rw [List.getElem?_append_left below] at waiting
    obtain ⟨result, ended⟩ := idle _ (List.mem_of_getElem? waiting)
    cases ended
  · subst same
    simp only [List.getElem?_concat_length, Option.some.injEq] at waiting
    exact ⟨rfl, waiting⟩
  · rw [List.getElem?_eq_none (by simp; omega)] at waiting
    cases waiting

/-- Programs that never overlap run one by one. -/
theorem Delivers.alone (answered : rules.AnsweredBy answers) {initial : S} {bursts : List (List L)}
    {system : System S A E V L} (delivers : Delivers rules initial bursts system)
    (single : ∀ burst ∈ bursts, burst.length ≤ 1) :
    system = System.oneByOne rules answers initial bursts.flatten ∨
      RunsAlone rules answers initial bursts system := by
  induction delivers with
  | nil => exact .inl rfl
  | resume delivers resumes ih =>
      cases resumes with
      | resume index waiting answer admitted segment =>
          rcases ih single with rfl | ⟨front, label, request, next, state, history, rfl, rfl, part⟩
          · obtain ⟨result, ended⟩ := System.oneByOne_idle initial _ _ (List.mem_of_getElem? waiting)
            cases ended
          · obtain ⟨rfl, same⟩ := waiting_last (System.oneByOne_idle initial front.flatten) waiting
            cases same
            have others : ∀ pair ∈ (System.oneByOne rules answers initial front.flatten).trace,
                pair.1 ≠ (System.oneByOne rules answers initial front.flatten).threads.length :=
              fun pair member => (System.oneByOne_tagged initial front.flatten pair member).ne
            have given := answered _ _ _ _ _ admitted
            rw [own_tagged history others] at given
            subst given
            have after := alone_of_segment answered _ rfl segment part
            simpa using after
  | @event bursts labels system system' delivers idle starts ih =>
      have earlier : ∀ burst ∈ bursts, burst.length ≤ 1 := fun burst member =>
        single burst (List.mem_append_left _ member)
      have few : labels.length ≤ 1 := single labels (by simp)
      rcases ih earlier with rfl | ⟨front, label, request, next, state, history, rfl, rfl, part⟩
      · cases starts with
        | nil =>
            left
            simp
        | @cons label labels _ thread state' trace' last enabled segment rest =>
            obtain rfl : labels = [] := List.length_eq_zero_iff.mp (by simpa using few)
            cases rest
            exact alone_of_segment answered _ rfl segment rfl
      · obtain ⟨result, ended⟩ := idle (.waiting request next) (by simp)
        cases ended
  | @overlap bursts burst labels system system' delivers running starts ih =>
      have few : (burst ++ labels).length ≤ 1 := single _ (by simp)
      have earlier : ∀ other ∈ bursts ++ [burst], other.length ≤ 1 := by
        intro other member
        rcases List.mem_append.mp member with member | member
        · exact single other (List.mem_append_left _ member)
        · rw [List.mem_singleton.mp member]
          rw [List.length_append] at few
          omega
      rcases ih earlier with rfl | runs
      · exact absurd (System.oneByOne_idle initial _) running
      · obtain ⟨front, label, _, _, _, _, whole, _⟩ := id runs
        obtain ⟨_, last⟩ := List.append_inj' whole rfl
        obtain rfl : burst = [label] := by simpa using last
        obtain rfl : labels = [] := List.length_eq_zero_iff.mp (by simpa using few)
        cases starts
        rw [List.append_nil]
        exact .inr runs

/-- An idle system whose programs never overlapped is the system of one program after the other. -/
theorem Delivers.oneByOne_of_idle (answered : rules.AnsweredBy answers) {initial : S} {bursts : List (List L)}
    {system : System S A E V L} (delivers : Delivers rules initial bursts system)
    (single : ∀ burst ∈ bursts, burst.length ≤ 1) (idle : system.Idle) :
    system = System.oneByOne rules answers initial bursts.flatten := by
  rcases delivers.alone answered single with whole | ⟨front, label, request, next, state, history, _, rfl, _⟩
  · exact whole
  · obtain ⟨result, ended⟩ := idle (.waiting request next) (by simp)
    cases ended

end Solo

section Own

variable {rules : Semantics S A E V L} {answers : Answers S A L}

theorem System.length_oneByOne (initial : S) (labels : List L) :
    (System.oneByOne rules answers initial labels).threads.length = labels.length := by
  induction labels using List.reverseRecOn with
  | nil => rfl
  | append_singleton labels label ih =>
      rw [oneByOne_append]
      simp [alone, ih]

theorem own_append_of_ne {me : Nat} {added trace : Trace A L} (others : ∀ pair ∈ added, pair.1 ≠ me) :
    own me (added ++ trace) = own me trace :=
  Extends.own_eq ⟨added, rfl, others⟩

theorem own_cons_of_ne {me index : Nat} (different : index ≠ me) (event : Event A L) (trace : Trace A L) :
    own me ((index, event) :: trace) = own me trace := by
  simp [own, different]

/-- A program that ran before others keeps its own history. -/
theorem System.own_oneByOne (initial : S) (front : List L) (label : L) (back : List L) :
    let before := System.oneByOne rules answers initial front
    own front.length (System.oneByOne rules answers initial (front ++ label :: back)).trace =
      ((rules.program label).solo (answers front.length) before.state [.started label]).history := by
  induction back using List.reverseRecOn with
  | nil =>
      rw [oneByOne_append, alone, length_oneByOne]
      apply own_tagged
      intro pair member
      have below := oneByOne_tagged initial front pair member
      rw [length_oneByOne] at below
      exact below.ne
  | append_singleton back other ih =>
      rw [← List.cons_append, ← List.append_assoc, oneByOne_append, alone, length_oneByOne]
      refine Eq.trans (own_append_of_ne ?_) ih
      intro pair member
      obtain ⟨event, _, rfl⟩ := List.mem_map.mp member
      simp

end Own

section Finish

variable {rules : Semantics S A E V L} {answers : Answers S A L} {good : C → Prop}

theorem Program.solo_suffix (answers : S → History A L → (request : C) → A request) (program : Program S A E V)
    (state : S) (history : History A L) : history <:+ (program.solo answers state history).history := by
  induction program generalizing state history with
  | done value => exact List.suffix_refl _
  | failed error => exact List.suffix_refl _
  | read next ih => exact ih state state history
  | store stored next ih => exact ih stored history
  | call request next ih => exact (List.suffix_cons _ _).trans (ih _ state _)
  | await request next ih => exact ((List.suffix_cons _ _).trans (List.suffix_cons _ _)).trans (ih _ state _)

/-- A thread can go on alone to its end, whatever other threads wait. -/
theorem Program.solo_finishes {me : Nat}
    (admitted : ∀ state trace request, good request →
      rules.admits me state trace request (answers me state (own me trace) request))
    (program : Program S A E V) (state : S) (trace : Trace A L)
    (asked : ∀ event ∈ (program.solo (answers me) state (own me trace)).history, event.Asks good) :
    let run := program.solo (answers me) state (own me trace)
    ∃ thread state' trace', Segment rules me program state trace thread state' trace' ∧
      ∀ threads : List (Thread S A E V), me < threads.length → ∃ added,
        (∀ pair ∈ added, pair.1 = me) ∧ own me (added ++ trace) = run.history ∧
        Relation.ReflTransGen (Resumes rules) ⟨state', trace', threads.set me thread⟩
          ⟨run.state, added ++ trace, threads.set me (.ended run.result)⟩ := by
  induction program generalizing state trace with
  | done value => exact ⟨_, _, _, .done, fun threads _ => ⟨[], by simp, rfl, .refl⟩⟩
  | failed error => exact ⟨_, _, _, .failed, fun threads _ => ⟨[], by simp, rfl, .refl⟩⟩
  | read next ih =>
      obtain ⟨thread, state', trace', segment, finishes⟩ := ih state state trace asked
      exact ⟨thread, state', trace', .read segment, finishes⟩
  | store stored next ih =>
      obtain ⟨thread, state', trace', segment, finishes⟩ := ih stored trace asked
      exact ⟨thread, state', trace', .store segment, finishes⟩
  | call request next ih =>
      have extended : own me ((me, .called request (answers me state (own me trace) request)) :: trace) =
          .called request (answers me state (own me trace) request) :: own me trace := own_cons_self _ _ _
      have later := solo_suffix (answers me) (next (answers me state (own me trace) request)) state
        (.called request (answers me state (own me trace) request) :: own me trace)
      have isGood := asked _ (later.subset List.mem_cons_self)
      obtain ⟨thread, state', trace', segment, finishes⟩ := ih (answers me state (own me trace) request) state
        ((me, .called request (answers me state (own me trace) request)) :: trace) (by rwa [extended])
      refine ⟨thread, state', trace', .call _ (admitted state trace request isGood) segment, ?_⟩
      intro threads inside
      obtain ⟨added, mine, owned, steps⟩ := finishes threads inside
      rw [extended] at owned steps
      refine ⟨added ++ [(me, .called request (answers me state (own me trace) request))], ?_, ?_, ?_⟩
      · exact List.forall_mem_append.mpr ⟨mine, List.forall_mem_singleton.mpr rfl⟩
      · rw [List.append_assoc]
        exact owned
      · rw [List.append_assoc]
        exact steps
  | await request next ih =>
      have issued : own me ((me, .issued request) :: trace) = .issued request :: own me trace :=
        own_cons_self _ _ _
      let answer := answers me state (.issued request :: own me trace) request
      have extended : own me ((me, .answered request answer) :: (me, .issued request) :: trace) =
          .answered request answer :: .issued request :: own me trace := by
        rw [own_cons_self, own_cons_self]
      have later := solo_suffix (answers me) (next answer) state
        (.answered request answer :: .issued request :: own me trace)
      have isGood := asked _ (later.subset List.mem_cons_self)
      obtain ⟨thread, state', trace', segment, finishes⟩ := ih answer state
        ((me, .answered request answer) :: (me, .issued request) :: trace) (by rwa [extended])
      refine ⟨_, _, _, .await, ?_⟩
      intro threads inside
      have waiting : (threads.set me (.waiting request next))[me]? = some (.waiting request next) :=
        List.getElem?_set_self inside
      have given := admitted state ((me, .issued request) :: trace) request isGood
      rw [issued] at given
      have resumed : Resumes rules ⟨state, (me, .issued request) :: trace, threads.set me (.waiting request next)⟩
          ⟨state', trace', (threads.set me (.waiting request next)).set me thread⟩ :=
        .resume me waiting answer given segment
      obtain ⟨added, mine, owned, steps⟩ := finishes threads inside
      rw [extended] at owned steps
      rw [List.set_set] at resumed
      refine ⟨added ++ [(me, .answered request answer), (me, .issued request)], ?_, ?_, ?_⟩
      · exact List.forall_mem_append.mpr ⟨mine, List.forall_mem_cons.mpr ⟨rfl, List.forall_mem_singleton.mpr rfl⟩⟩
      · rw [List.append_assoc]
        exact owned
      · rw [List.append_assoc]
        exact .head resumed steps

end Finish

/-- A program that winds down takes turns only. -/
inductive Program.WindsDown (turn : C) : Program S A E V → Prop where
  | done (value : V) : WindsDown turn (.done value)
  | failed (error : E) : WindsDown turn (.failed error)
  | await {next} (rest : ∀ answer, WindsDown turn (next answer)) : WindsDown turn (.await turn next)

/-- A thread that has ended or that winds down. -/
inductive Thread.WindsDown (turn : C) : Thread S A E V → Prop where
  | ended (result : Except E V) : WindsDown turn (.ended result)
  | waiting {next} (rest : ∀ answer, (next answer).WindsDown turn) : WindsDown turn (.waiting turn next)

section WindDown

variable {rules : Semantics S A E V L} {turn : C}

/-- A program that winds down can take its turns to the end. -/
theorem Program.WindsDown.finishes
    (admits : ∀ me state trace, ∃ answer, rules.admits me state trace turn answer)
    {program : Program S A E V} (winds : program.WindsDown turn) (me : Nat) (state : S) (trace : Trace A L) :
    ∃ thread trace', Segment rules me program state trace thread state trace' ∧
      ∀ threads : List (Thread S A E V), me < threads.length → ∃ result added,
        (∀ pair ∈ added, pair.1 = me) ∧ Relation.ReflTransGen (Resumes rules)
          ⟨state, trace', threads.set me thread⟩ ⟨state, added ++ trace, threads.set me (.ended result)⟩ := by
  induction winds generalizing trace with
  | done value => exact ⟨_, _, .done, fun threads _ => ⟨_, [], by simp, .refl⟩⟩
  | failed error => exact ⟨_, _, .failed, fun threads _ => ⟨_, [], by simp, .refl⟩⟩
  | @await next rest ih =>
      refine ⟨_, _, .await, ?_⟩
      intro threads inside
      obtain ⟨answer, admitted⟩ := admits me state ((me, .issued turn) :: trace)
      obtain ⟨thread, trace', segment, finishes⟩ :=
        ih answer ((me, .answered turn answer) :: (me, .issued turn) :: trace)
      obtain ⟨result, added, mine, finished⟩ := finishes (threads.set me (.waiting turn next)) (by simpa using inside)
      have waiting : (threads.set me (.waiting turn next))[me]? = some (.waiting turn next) :=
        List.getElem?_set_self inside
      have resumed : Resumes rules ⟨state, (me, .issued turn) :: trace, threads.set me (.waiting turn next)⟩
          ⟨state, trace', (threads.set me (.waiting turn next)).set me thread⟩ :=
        .resume me waiting answer admitted segment
      refine ⟨result, added ++ [(me, .answered turn answer), (me, .issued turn)], ?_, ?_⟩
      · exact List.forall_mem_append.mpr ⟨mine, List.forall_mem_cons.mpr ⟨rfl, List.forall_mem_singleton.mpr rfl⟩⟩
      · rw [List.append_assoc]
        simp only [List.set_set] at resumed finished
        exact .head resumed finished

/-- Threads that wind down can all end, and they leave the other threads alone. -/
theorem System.becomes_idle (admits : ∀ me state trace, ∃ answer, rules.admits me state trace turn answer)
    {state : S} {trace : Trace A L} {front rest : List (Thread S A E V)}
    (ended : ∀ thread ∈ front, ∃ result, thread = .ended result) (winds : ∀ thread ∈ rest, thread.WindsDown turn) :
    ∃ rest' added, rest'.length = rest.length ∧ (∀ thread ∈ rest', ∃ result, thread = .ended result) ∧
      (∀ pair ∈ added, front.length ≤ pair.1) ∧
      Relation.ReflTransGen (Resumes rules) ⟨state, trace, front ++ rest⟩ ⟨state, added ++ trace, front ++ rest'⟩ := by
  induction rest generalizing front trace with
  | nil => exact ⟨[], [], rfl, by simp, by simp, .refl⟩
  | cons thread rest ih =>
      have winding : ∀ thread ∈ rest, thread.WindsDown turn := fun other member =>
        winds other (List.mem_cons_of_mem _ member)
      have first : ∃ result added, (∀ pair ∈ added, pair.1 = front.length) ∧ Relation.ReflTransGen (Resumes rules)
          ⟨state, trace, front ++ thread :: rest⟩ ⟨state, added ++ trace, front ++ .ended result :: rest⟩ := by
        cases winds thread List.mem_cons_self with
        | ended result => exact ⟨result, [], by simp, .refl⟩
        | @waiting next quits =>
            obtain ⟨answer, admitted⟩ := admits front.length state trace
            obtain ⟨thread', trace', segment, finishes⟩ :=
              (quits answer).finishes admits front.length state ((front.length, .answered turn answer) :: trace)
            obtain ⟨result, added, mine, finished⟩ := finishes (front ++ .waiting turn next :: rest) (by simp)
            have resumed : Resumes rules ⟨state, trace, front ++ .waiting turn next :: rest⟩
                ⟨state, trace', (front ++ .waiting turn next :: rest).set front.length thread'⟩ :=
              .resume front.length (by simp) answer admitted segment
            refine ⟨result, added ++ [(front.length, .answered turn answer)], ?_, ?_⟩
            · exact List.forall_mem_append.mpr ⟨mine, List.forall_mem_singleton.mpr rfl⟩
            · rw [List.append_assoc]
              exact .head resumed (by simpa using finished)
      obtain ⟨result, added, mine, steps⟩ := first
      have front' : ∀ thread ∈ front ++ [.ended result], ∃ result, thread = .ended result :=
        List.forall_mem_append.mpr ⟨ended, List.forall_mem_singleton.mpr ⟨result, rfl⟩⟩
      obtain ⟨rest', later, length, ended', others, steps'⟩ := @ih (added ++ trace) (front ++ [.ended result]) front' winding
      refine ⟨.ended result :: rest', later ++ added, by simp [length], ?_, ?_, ?_⟩
      · exact List.forall_mem_cons.mpr ⟨⟨result, rfl⟩, ended'⟩
      · intro pair member
        rcases List.mem_append.mp member with member | member
        · have above := others pair member
          rw [List.length_append, List.length_singleton] at above
          omega
        · exact (mine pair member).ge
      · simp only [List.append_assoc, List.singleton_append] at steps' ⊢
        exact Relation.ReflTransGen.trans steps steps'

/-- A waiting thread goes on alone to its end, and then the threads behind it wind down. -/
theorem Delivers.finishes {answers : Answers S A L} {good : C → Prop}
    (admitted : ∀ me state trace request, good request →
      rules.admits me state trace request (answers me state (own me trace) request))
    (turns : ∀ me state trace, ∃ answer, rules.admits me state trace turn answer)
    {initial : S} {bursts : List (List L)} {state : S} {trace : Trace A L} {front others : List (Thread S A E V)}
    {request : C} {next : A request → Program S A E V}
    (delivers : Delivers rules initial bursts ⟨state, trace, front ++ .waiting request next :: others⟩)
    (ended : ∀ thread ∈ front, ∃ result, thread = .ended result)
    (winds : ∀ thread ∈ others, thread.WindsDown turn) :
    let me := front.length
    let answer := answers me state (own me trace) request
    let run := (next answer).solo (answers me) state (.answered request answer :: own me trace)
    (∀ event ∈ run.history, event.Asks good) → ∃ after, Delivers rules initial bursts after ∧ after.Idle ∧
      me < after.threads.length ∧ after.state = run.state ∧ own me after.trace = run.history := by
  intro me answer run asked
  have waiting : (front ++ .waiting request next :: others)[me]? = some (.waiting request next) := by
    rw [List.getElem?_append_right le_rfl, Nat.sub_self]
    rfl
  have extended : own me ((me, .answered request answer) :: trace) = .answered request answer :: own me trace :=
    own_cons_self _ _ _
  have isGood : good request := asked _
    ((Program.solo_suffix (answers me) (next answer) state _).subset List.mem_cons_self)
  obtain ⟨thread, state', trace', segment, solo⟩ := Program.solo_finishes (admitted me) (next answer) state
    ((me, .answered request answer) :: trace) (by rwa [extended])
  obtain ⟨added, mine, owned, steps⟩ := solo (front ++ .waiting request next :: others) (by simp [me])
  rw [extended] at owned steps
  have resumed : Resumes rules ⟨state, trace, front ++ .waiting request next :: others⟩ ⟨state', trace', _⟩ :=
    .resume me waiting answer (admitted me state trace request isGood) segment
  have split : (front ++ .waiting request next :: others).set me (.ended run.result) =
      (front ++ [.ended run.result]) ++ others := by
    simp [me]
  rw [split] at steps
  have front' : ∀ thread ∈ front ++ [.ended run.result], ∃ result, thread = .ended result :=
    List.forall_mem_append.mpr ⟨ended, List.forall_mem_singleton.mpr ⟨_, rfl⟩⟩
  obtain ⟨rest', later, length, ended', tags, steps'⟩ := System.becomes_idle turns front' winds
  have apart : ∀ pair ∈ later, pair.1 ≠ me := by
    intro pair member
    have above := tags pair member
    rw [List.length_append, List.length_singleton] at above
    omega
  refine ⟨_, (delivers.resumeAll (.head resumed steps)).resumeAll steps', ?_, ?_, rfl, ?_⟩
  · exact List.forall_mem_append.mpr ⟨front', ended'⟩
  · simp [me]
  · rw [own_append_of_ne apart, owned]

end WindDown

end Async
