import ComptoMiningPool.Async.Frame

/-
This file proves that sequential runs are interleavings in which no two threads overlap.
-/

namespace Async

variable {S C E V W L : Type} {A : C → Type}

/-- The history of one thread becomes a part of the trace of its system. -/
def tagged (me : Nat) (history : History A L) : Trace A L := history.map (Prod.mk me)

@[simp] theorem tagged_cons (me : Nat) (event : Event A L) (history : History A L) :
    tagged me (event :: history) = (me, event) :: tagged me history := rfl

/-- Each request that an event answers is a good one. -/
def Event.Asks (good : C → Prop) : Event A L → Prop
  | .called request _ => good request
  | .answered request _ => good request
  | _ => True

instance (good : C → Prop) [DecidablePred good] (event : Event A L) : Decidable (event.Asks good) :=
  match event with
  | .called request _ => inferInstanceAs (Decidable (good request))
  | .answered request _ => inferInstanceAs (Decidable (good request))
  | .started _ => inferInstanceAs (Decidable True)
  | .issued _ => inferInstanceAs (Decidable True)

/-- A run only adds events to its history. -/
theorem Program.history_suffix (environment : History A L → (request : C) → A request)
    (program : Program S A E V) (state : S) (history : History A L) :
    history <:+ (program.run environment state history).history := by
  induction program generalizing state history with
  | done value => exact List.suffix_refl _
  | failed error => exact List.suffix_refl _
  | read next ih => exact ih state state history
  | store stored next ih => exact ih stored history
  | call request next ih => exact (List.suffix_cons _ _).trans (ih _ state _)
  | await request next ih =>
      exact ((List.suffix_cons _ _).trans (List.suffix_cons _ _)).trans (ih _ state _)

/-- A longer program keeps the history of its first part. -/
theorem Program.history_subset_bind (environment : History A L → (request : C) → A request)
    (program : Program S A E V) (rest : V → Program S A E W) (state : S) (history : History A L) :
    (program.run environment state history).history ⊆
      ((program.bind rest).run environment state history).history := by
  rw [run_bind]
  cases (program.run environment state history).result with
  | ok value => exact (history_suffix environment (rest value) _ _).subset
  | error error => exact List.Subset.refl _

theorem Program.history_subset_joined (environment : History A L → (request : C) → A request)
    (turn : C) (program : Program S A E V) (state : S) (history : History A L) :
    (program.run environment state history).history ⊆
      ((program.joined turn).run environment state history).history := by
  rw [run_joined]
  exact List.Subset.trans (List.subset_cons_self _ _) (List.subset_cons_self _ _)

/-- A sequential run of a framed program keeps to its frame and makes allowed calls only. -/
theorem Frame.Holds.run {frame : Frame S C} (closed : frame.Closed)
    (reflexive : ∀ state, frame.keeps state state)
    (transitive : ∀ first second third, frame.keeps first second → frame.keeps second third →
      frame.keeps first third)
    (environment : History A L → (request : C) → A request) {program : Program S A E V} {state : S}
    (stable : frame.stable state) (framed : frame.Holds program state) (history : History A L) :
    frame.keeps state (program.run environment state history).state ∧
      ∃ added, (program.run environment state history).history = added ++ history ∧
        ∀ event ∈ added, event.Asks fun request => ∃ state, frame.allowed state request := by
  induction program generalizing state history with
  | done value => exact ⟨reflexive state, [], rfl, fun _ member => nomatch member⟩
  | failed error => exact ⟨reflexive state, [], rfl, fun _ member => nomatch member⟩
  | read next ih => exact ih state stable framed history
  | store stored next ih =>
      obtain ⟨keeps, asked⟩ := ih (closed _ _ stable framed.1) framed.2 history
      exact ⟨transitive _ _ _ framed.1 keeps, asked⟩
  | call request next ih =>
      obtain ⟨keeps, added, whole, asked⟩ := ih _ stable (framed.2 _)
        (.called request (environment history request) :: history)
      refine ⟨keeps, added ++ [.called request (environment history request)], ?_, ?_⟩
      · rw [List.append_assoc]
        exact whole
      · intro event member
        rcases List.mem_append.mp member with later | newest
        · exact asked event later
        · rw [List.mem_singleton.mp newest]
          exact ⟨state, framed.1⟩
  | await request next ih =>
      obtain ⟨keeps, added, whole, asked⟩ := ih _ stable (framed.2 state _ stable)
        (.answered request (environment (.issued request :: history) request) ::
          .issued request :: history)
      refine ⟨keeps, added ++ [.answered request (environment (.issued request :: history) request),
        .issued request], ?_, ?_⟩
      · rw [List.append_assoc]
        exact whole
      · intro event member
        rcases List.mem_append.mp member with later | newest
        · exact asked event later
        · rcases List.mem_cons.mp newest with rfl | issued
          · exact ⟨state, framed.1⟩
          · rw [List.mem_singleton.mp issued]
            trivial

/-- A system runs one more program from its start to its end. -/
def System.after (rules : Semantics S A E V L) (environment : History A L → (request : C) → A request)
    (system : System S A E V L) (label : L) : System S A E V L :=
  let run := (rules.program label).run environment system.state [.started label]
  ⟨run.state, tagged system.threads.length run.history ++ system.trace,
    system.threads ++ [.ended run.result]⟩

section Runs

variable {rules : Semantics S A E V L} {environment : History A L → (request : C) → A request}
  {good : C → Prop}

/-- The first segment of a run leads to a thread whose later segments finish the run. -/
theorem Program.segments {me : Nat} {base : Trace A L}
    (answers : ∀ me history state trace request, good request →
      rules.admits me state trace request (environment history request))
    (program : Program S A E V) (state : S) (history : History A L)
    (asked : ∀ event ∈ (program.run environment state history).history, event.Asks good) :
    ∃ thread state' history', Segment rules me program state (tagged me history ++ base) thread state'
        (tagged me history' ++ base) ∧
      ∀ threads : List (Thread S A E V), threads.length = me → Relation.ReflTransGen (Step rules)
        ⟨state', tagged me history' ++ base, threads ++ [thread]⟩
        ⟨(program.run environment state history).state,
          tagged me (program.run environment state history).history ++ base,
          threads ++ [.ended (program.run environment state history).result]⟩ := by
  induction program generalizing state history with
  | done value => exact ⟨_, _, history, .done, fun _ _ => .refl⟩
  | failed error => exact ⟨_, _, history, .failed, fun _ _ => .refl⟩
  | read next ih =>
      obtain ⟨thread, state', history', segment, finishes⟩ := ih state state history asked
      exact ⟨thread, state', history', .read segment, finishes⟩
  | store stored next ih =>
      obtain ⟨thread, state', history', segment, finishes⟩ := ih stored history asked
      exact ⟨thread, state', history', .store segment, finishes⟩
  | call request next ih =>
      obtain ⟨thread, state', history', segment, finishes⟩ := ih _ state _ asked
      have later := Program.history_suffix environment (next (environment history request)) state
        (.called request (environment history request) :: history)
      have event := asked _ (later.subset List.mem_cons_self)
      exact ⟨thread, state', history', .call _ (answers _ _ _ _ _ event) segment, finishes⟩
  | await request next ih =>
      obtain ⟨thread, state', history', segment, finishes⟩ := ih _ state _ asked
      have later := Program.history_suffix environment
        (next (environment (.issued request :: history) request)) state
        (.answered request (environment (.issued request :: history) request) ::
          .issued request :: history)
      have event := asked _ (later.subset List.mem_cons_self)
      refine ⟨_, state, .issued request :: history, .await, ?_⟩
      intro threads length
      have waiting : (threads ++ [Thread.waiting request next])[me]? = some (.waiting request next) := by
        rw [← length, List.getElem?_concat_length]
      have replaced : (threads ++ [Thread.waiting request next]).set me thread = threads ++ [thread] := by
        rw [← length, List.set_append_right _ _ (Nat.le_refl _), Nat.sub_self]
        rfl
      have resumed : Step rules
          ⟨state, tagged me (.issued request :: history) ++ base, threads ++ [.waiting request next]⟩
          ⟨state', tagged me history' ++ base,
            (threads ++ [Thread.waiting request next]).set me thread⟩ :=
        .resume me waiting _ (answers _ _ _ _ _ event) segment
      rw [replaced] at resumed
      exact .head resumed (finishes threads length)

/-- A program that runs alone takes steps of its system. -/
theorem System.steps_after {system : System S A E V L}
    (answers : ∀ me history state trace request, good request →
      rules.admits me state trace request (environment history request))
    {label : L} (enabled : rules.mayStart system.state system.trace label)
    (asked : ∀ pair ∈ (system.after rules environment label).trace, pair.2.Asks good) :
    Relation.ReflTransGen (Step rules) system (system.after rules environment label) := by
  obtain ⟨thread, state', history', segment, finishes⟩ := Program.segments answers
    (rules.program label) system.state [.started label] (by
      intro event member
      apply asked (system.threads.length, event)
      exact List.mem_append_left _ (List.mem_map_of_mem member))
  have started : Step rules system
      ⟨state', tagged system.threads.length history' ++ system.trace, system.threads ++ [thread]⟩ :=
    .start label enabled segment
  exact .head started (finishes system.threads rfl)

/-- A program that runs alone is an interleaving. -/
theorem Reachable.after {initial : S} {system : System S A E V L}
    (answers : ∀ me history state trace request, good request →
      rules.admits me state trace request (environment history request))
    (reached : Reachable rules initial system) {label : L}
    (enabled : rules.mayStart system.state system.trace label)
    (asked : ∀ pair ∈ (system.after rules environment label).trace, pair.2.Asks good) :
    Reachable rules initial (system.after rules environment label) :=
  reached.trans (System.steps_after answers enabled asked)

/-- Programs that run one after the other are an interleaving. -/
theorem Reachable.afterAll {initial : S} {system : System S A E V L}
    (answers : ∀ me history state trace request, good request →
      rules.admits me state trace request (environment history request))
    (reached : Reachable rules initial system) {labels : List L}
    (enabled : ∀ label ∈ labels, ∀ state trace, rules.mayStart state trace label)
    (asked : ∀ pair ∈ (labels.foldl (System.after rules environment) system).trace, pair.2.Asks good) :
    Reachable rules initial (labels.foldl (System.after rules environment) system) := by
  induction labels generalizing system with
  | nil => exact reached
  | cons label labels ih =>
      have grows : ∀ (labels : List L) (system : System S A E V L),
          system.trace ⊆ (labels.foldl (System.after rules environment) system).trace := by
        intro labels
        induction labels with
        | nil => exact fun _ => List.Subset.refl _
        | cons label labels ih =>
            intro system
            exact List.Subset.trans (List.subset_append_right _ _)
              (ih (system.after rules environment label))
      have first := reached.after answers (enabled label List.mem_cons_self _ _) fun pair member =>
        asked pair (grows labels _ member)
      apply ih first
      · intro label member
        exact enabled label (List.mem_cons_of_mem _ member)
      · exact asked

end Runs

end Async
