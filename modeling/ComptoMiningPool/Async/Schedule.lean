import ComptoMiningPool.Async.Interleaving

/-
This file runs systems along schedules. A schedule names the threads in the order of their segments, and
one environment gives every answer.
-/

namespace Async

variable {S C E V L : Type} {A : C → Type}

/-- A move starts a program or resumes a thread. -/
inductive Move (L : Type) where
  | start (label : L)
  | resume (index : Nat)

/-- The thread, the state, and the new events at the end of one segment. -/
def Program.advance (me : Nat) (environment : (request : C) → A request) :
    Program S A E V → S → Thread S A E V × S × Trace A L
  | .done value, state => (.ended (.ok value), state, [])
  | .failed error, state => (.ended (.error error), state, [])
  | .read next, state => (next state).advance me environment state
  | .store stored next, _ => next.advance me environment stored
  | .call request next, state =>
      let (thread, state', added) := (next (environment request)).advance me environment state
      (thread, state', added ++ [(me, .called request (environment request))])
  | .await request next, state => (.waiting request next, state, [(me, .issued request)])

/-- A thread that does not wait cannot be resumed. -/
def System.move (rules : Semantics S A E V L) (environment : (request : C) → A request)
    (system : System S A E V L) : Move L → System S A E V L
  | .start label =>
      let me := system.threads.length
      let (thread, state, added) := (rules.program label).advance me environment system.state
      ⟨state, added ++ (me, .started label) :: system.trace, system.threads ++ [thread]⟩
  | .resume index =>
      match system.threads[index]? with
      | some (.waiting request next) =>
          let (thread, state, added) :=
            (next (environment request)).advance index environment system.state
          ⟨state, added ++ (index, .answered request (environment request)) :: system.trace,
            system.threads.set index thread⟩
      | _ => system

/-- A move is lawful when its program may start or its answer is admitted. -/
def System.Lawful (rules : Semantics S A E V L) (environment : (request : C) → A request)
    (system : System S A E V L) : Move L → Prop
  | .start label => rules.mayStart system.state system.trace label
  | .resume index => ∀ request next, system.threads[index]? = some (.waiting request next) →
      rules.admits index system.state system.trace request (environment request)

/-- Each move of a lawful schedule is lawful when its turn comes. -/
def System.LawfulAll (rules : Semantics S A E V L) (environment : (request : C) → A request) :
    System S A E V L → List (Move L) → Prop
  | _, [] => True
  | system, move :: moves =>
      system.Lawful rules environment move ∧ (system.move rules environment move).LawfulAll rules environment moves

/-- A waiting thread may be resumed when its answer is admitted. -/
theorem System.lawful_resume {rules : Semantics S A E V L} {environment : (request : C) → A request}
    {system : System S A E V L} {index : Nat} {request : C} {next : A request → Program S A E V}
    (waits : system.threads[index]? = some (.waiting request next))
    (admitted : rules.admits index system.state system.trace request (environment request)) :
    system.Lawful rules environment (.resume index) := by
  intro request' next' waiting
  rw [waits] at waiting
  cases waiting
  exact admitted

/-- Each synchronous call of an event is a good one. -/
def Event.Calls (good : C → Prop) : Event A L → Prop
  | .called request _ => good request
  | _ => True

instance (good : C → Prop) [DecidablePred good] (event : Event A L) : Decidable (event.Calls good) :=
  match event with
  | .called request _ => inferInstanceAs (Decidable (good request))
  | .answered _ _ => inferInstanceAs (Decidable True)
  | .started _ => inferInstanceAs (Decidable True)
  | .issued _ => inferInstanceAs (Decidable True)

section Moves

variable {rules : Semantics S A E V L} {environment : (request : C) → A request} {good : C → Prop}

/-- An advance is a segment when the answers to its calls are admitted. -/
theorem Program.segment_advance {me : Nat}
    (answers : ∀ state trace request, good request →
      rules.admits me state trace request (environment request))
    (program : Program S A E V) (state : S) (trace : Trace A L)
    (called : ∀ pair ∈ (program.advance me environment state : _ × _ × Trace A L).2.2,
      pair.2.Calls good) :
    let ran : _ × _ × Trace A L := program.advance me environment state
    Segment rules me program state trace ran.1 ran.2.1 (ran.2.2 ++ trace) := by
  induction program generalizing state trace with
  | done value => exact .done
  | failed error => exact .failed
  | read next ih => exact .read (ih state state trace called)
  | store stored next ih => exact .store (ih stored trace called)
  | call request next ih =>
      have rest := ih (environment request) state ((me, .called request (environment request)) :: trace)
        fun pair member => called pair (List.mem_append_left _ member)
      have admitted := answers state trace request (called (me, .called request (environment request))
        (List.mem_append_right _ List.mem_cons_self))
      simp only [advance, List.append_assoc, List.cons_append, List.nil_append]
      exact .call (environment request) admitted rest
  | await request next ih => exact .await

/-- A start is recorded under the next free index. -/
theorem System.started_move (system : System S A E V L) (label : L) :
    (system.threads.length, .started label) ∈ (system.move rules environment (.start label)).trace :=
  List.mem_append_right _ List.mem_cons_self

/-- A lawful move that changes the system is a step. -/
theorem System.steps_move {system : System S A E V L}
    (answers : ∀ me state trace request, good request →
      rules.admits me state trace request (environment request))
    {move : Move L} (lawful : system.Lawful rules environment move)
    (called : ∀ pair ∈ (system.move rules environment move).trace, pair.2.Calls good) :
    Relation.ReflTransGen (Step rules) system (system.move rules environment move) := by
  cases move with
  | start label =>
      exact .single (.start label lawful (Program.segment_advance (answers _) _ _ _
        fun pair member => called pair (List.mem_append_left _ member)))
  | resume index =>
      rcases waiting : system.threads[index]? with _ | (⟨request, next⟩ | result)
      · simpa only [System.move, waiting] using .refl
      · simp only [System.move, waiting] at called ⊢
        exact .single (.resume index waiting _ (lawful request next waiting)
          (Program.segment_advance (answers _) _ _ _
            fun pair member => called pair (List.mem_append_left _ member)))
      · simpa only [System.move, waiting] using .refl

theorem Reachable.move {initial : S} {system : System S A E V L}
    (answers : ∀ me state trace request, good request →
      rules.admits me state trace request (environment request))
    (reached : Reachable rules initial system) {move : Move L} (lawful : system.Lawful rules environment move)
    (called : ∀ pair ∈ (system.move rules environment move).trace, pair.2.Calls good) :
    Reachable rules initial (system.move rules environment move) :=
  reached.trans (System.steps_move answers lawful called)

/-- A move only adds events to the trace. -/
theorem System.trace_suffix_move (system : System S A E V L) (move : Move L) :
    system.trace <:+ (system.move rules environment move).trace := by
  cases move with
  | start label => exact (List.suffix_cons _ _).trans (List.suffix_append _ _)
  | resume index =>
      rcases waiting : system.threads[index]? with _ | (⟨request, next⟩ | result)
      · simp only [System.move, waiting]
        exact List.suffix_rfl
      · simp only [System.move, waiting]
        exact (List.suffix_cons _ _).trans (List.suffix_append _ _)
      · simp only [System.move, waiting]
        exact List.suffix_rfl

theorem System.trace_suffix_moves (system : System S A E V L) (moves : List (Move L)) :
    system.trace <:+ (moves.foldl (System.move rules environment) system).trace := by
  induction moves generalizing system with
  | nil => exact List.suffix_rfl
  | cons move moves ih => exact (system.trace_suffix_move move).trans (ih _)

/-- A lawful schedule is a sequence of steps. -/
theorem System.steps_moves {system : System S A E V L}
    (answers : ∀ me state trace request, good request →
      rules.admits me state trace request (environment request))
    {moves : List (Move L)} (lawful : system.LawfulAll rules environment moves)
    (called : ∀ pair ∈ (moves.foldl (System.move rules environment) system).trace, pair.2.Calls good) :
    Relation.ReflTransGen (Step rules) system (moves.foldl (System.move rules environment) system) := by
  induction moves generalizing system with
  | nil => exact .refl
  | cons move moves ih =>
      have first := System.steps_move answers lawful.1 fun pair member =>
        called pair (((system.move rules environment move).trace_suffix_moves moves).subset member)
      exact first.trans (ih lawful.2 called)

/-- A lawful schedule is an interleaving. -/
theorem Reachable.moves {initial : S} {system : System S A E V L}
    (answers : ∀ me state trace request, good request →
      rules.admits me state trace request (environment request))
    (reached : Reachable rules initial system) {moves : List (Move L)}
    (lawful : system.LawfulAll rules environment moves)
    (called : ∀ pair ∈ (moves.foldl (System.move rules environment) system).trace, pair.2.Calls good) :
    Reachable rules initial (moves.foldl (System.move rules environment) system) :=
  reached.trans (System.steps_moves answers lawful called)

end Moves

end Async
