import ComptoMiningPool.Async.Threads

/-
This file gives the weakest precondition that sees the own history of one thread and no state.
-/

namespace Async

variable {S C E V W L : Type} {A : C → Type}

/-- A local postcondition speaks about the result and the own history of the thread. -/
abbrev LocalPost {C : Type} (A : C → Type) (E V L : Type) := Except E V → History A L → Prop

/-- The monitor judges each event after the own history, and every read may find any state. -/
def localWp (answers : (request : C) → A request → Prop) (monitor : History A L → Event A L → Prop) :
    Program S A E V → LocalPost A E V L → History A L → Prop
  | .done value, post, history => post (.ok value) history
  | .failed error, post, history => post (.error error) history
  | .read next, post, history => ∀ state, localWp answers monitor (next state) post history
  | .store _ next, post, history => localWp answers monitor next post history
  | .call request next, post, history => ∀ answer, answers request answer →
      monitor history (.called request answer) ∧
        localWp answers monitor (next answer) post (.called request answer :: history)
  | .await request next, post, history => monitor history (.issued request) ∧
      ∀ answer, answers request answer → monitor (.issued request :: history) (.answered request answer) ∧
        localWp answers monitor (next answer) post
          (.answered request answer :: .issued request :: history)

section Rules

variable {answers : (request : C) → A request → Prop} {monitor : History A L → Event A L → Prop}

@[simp] theorem localWp_ofExcept {result : Except E V} {post : LocalPost A E V L} {history : History A L} :
    localWp answers monitor (Program.ofExcept result : Program S A E V) post history ↔ post result history := by
  cases result <;> exact Iff.rfl

theorem localWp_mono {program : Program S A E V} {strong weak : LocalPost A E V L} {history : History A L}
    (implies : ∀ result history, strong result history → weak result history)
    (holds : localWp answers monitor program strong history) :
    localWp answers monitor program weak history := by
  induction program generalizing history with
  | done value => exact implies _ _ holds
  | failed error => exact implies _ _ holds
  | read next ih => exact fun state => ih state (holds state)
  | store stored next ih => exact ih holds
  | call request next ih =>
      intro answer answered
      exact ⟨(holds answer answered).1, ih answer (holds answer answered).2⟩
  | await request next ih =>
      refine ⟨holds.1, ?_⟩
      intro answer answered
      exact ⟨(holds.2 answer answered).1, ih answer (holds.2 answer answered).2⟩

theorem localWp_bind {program : Program S A E V} {rest : V → Program S A E W} {post : LocalPost A E W L}
    {history : History A L} :
    localWp answers monitor (program.bind rest) post history ↔
      localWp answers monitor program (fun result history => match result with
        | .ok value => localWp answers monitor (rest value) post history
        | .error error => post (.error error) history) history := by
  induction program generalizing history with
  | done value => exact Iff.rfl
  | failed error => exact Iff.rfl
  | read next ih => exact forall_congr' fun state => ih state
  | store stored next ih => exact ih
  | call request next ih =>
      exact forall_congr' fun answer => forall_congr' fun _ => and_congr Iff.rfl (ih answer)
  | await request next ih =>
      exact and_congr Iff.rfl
        (forall_congr' fun answer => forall_congr' fun _ => and_congr Iff.rfl (ih answer))

/-- A sequence meets its postcondition from what its first program establishes. -/
theorem localWp_bind_of {program : Program S A E V} {rest : V → Program S A E W} {middle : LocalPost A E V L}
    {post : LocalPost A E W L} {history : History A L} (first : localWp answers monitor program middle history)
    (failed : ∀ error later, middle (.error error) later → post (.error error) later)
    (second : ∀ value later, middle (.ok value) later → localWp answers monitor (rest value) post later) :
    localWp answers monitor (program.bind rest) post history := by
  rw [localWp_bind]
  apply localWp_mono _ first
  intro result later reached
  cases result with
  | ok value => exact second value later reached
  | error error => exact failed error later reached

theorem localWp_attempt {program : Program S A E V} {handler : E → Program S A E V}
    {post : LocalPost A E V L} {history : History A L} :
    localWp answers monitor (program.attempt handler) post history ↔
      localWp answers monitor program (fun result history => match result with
        | .ok value => post (.ok value) history
        | .error error => localWp answers monitor (handler error) post history) history := by
  induction program generalizing history with
  | done value => exact Iff.rfl
  | failed error => exact Iff.rfl
  | read next ih => exact forall_congr' fun state => ih state
  | store stored next ih => exact ih
  | call request next ih =>
      exact forall_congr' fun answer => forall_congr' fun _ => and_congr Iff.rfl (ih answer)
  | await request next ih =>
      exact and_congr Iff.rfl
        (forall_congr' fun answer => forall_congr' fun _ => and_congr Iff.rfl (ih answer))

theorem localWp_joined {turn : C} {program : Program S A E V} {post : LocalPost A E V L}
    {history : History A L} :
    localWp answers monitor (program.joined turn) post history ↔
      localWp answers monitor program (fun result => localWp answers monitor
        (.await turn fun _ => Program.ofExcept result : Program S A E V) post) history := by
  induction program generalizing history with
  | done value => exact Iff.rfl
  | failed error => exact Iff.rfl
  | read next ih => exact forall_congr' fun state => ih state
  | store stored next ih => exact ih
  | call request next ih =>
      exact forall_congr' fun answer => forall_congr' fun _ => and_congr Iff.rfl (ih answer)
  | await request next ih =>
      exact and_congr Iff.rfl
        (forall_congr' fun answer => forall_congr' fun _ => and_congr Iff.rfl (ih answer))

/-- The request that an event makes or answers. A start makes none. -/
def Event.request? : Event A L → Option C
  | .started _ => none
  | .called request _ => some request
  | .issued request => some request
  | .answered request _ => some request

/-- The monitor accepts each event of an allowed request. -/
def Accepts (monitor : History A L → Event A L → Prop) (allowed : C → Prop) : Prop :=
  ∀ history event request, event.request? = some request → allowed request → monitor history event

/-- A program of allowed requests meets the monitor and lengthens the history by events of such requests. -/
theorem localWp_of_makes {allowed : C → Prop} (accepts : Accepts monitor allowed) {program : Program S A E V}
    (makes : Makes allowed program) {earlier history : History A L} (suffix : earlier <:+ history) :
    localWp answers monitor program (fun _ later => earlier <:+ later) history := by
  induction program generalizing history with
  | done value => exact suffix
  | failed error => exact suffix
  | read next ih => exact fun state => ih state (makes state) suffix
  | store stored next ih => exact ih makes suffix
  | call request next ih =>
      intro answer _
      exact ⟨accepts _ _ request rfl makes.1, ih answer (makes.2 answer) (suffix.trans (List.suffix_cons _ _))⟩
  | await request next ih =>
      refine ⟨accepts _ _ request rfl makes.1, ?_⟩
      intro answer _
      refine ⟨accepts _ _ request rfl makes.1, ih answer (makes.2 answer) ?_⟩
      exact suffix.trans ((List.suffix_cons _ _).trans (List.suffix_cons _ _))

/-- A program only lengthens the history. -/
theorem localWp_frame {program : Program S A E V} {post : LocalPost A E V L} {earlier history : History A L}
    (suffix : earlier <:+ history) (holds : localWp answers monitor program post history) :
    localWp answers monitor program (fun result later => earlier <:+ later ∧ post result later) history := by
  induction program generalizing history with
  | done value => exact ⟨suffix, holds⟩
  | failed error => exact ⟨suffix, holds⟩
  | read next ih => exact fun state => ih state suffix (holds state)
  | store stored next ih => exact ih suffix holds
  | call request next ih =>
      intro answer answered
      exact ⟨(holds answer answered).1, ih answer (suffix.trans (List.suffix_cons _ _)) (holds answer answered).2⟩
  | await request next ih =>
      refine ⟨holds.1, ?_⟩
      intro answer answered
      refine ⟨(holds.2 answer answered).1, ih answer ?_ (holds.2 answer answered).2⟩
      exact suffix.trans ((List.suffix_cons _ _).trans (List.suffix_cons _ _))

/-- A thread that has ended meets the postcondition of its program. -/
theorem Follows.localPost (admitted : ∀ request answer, answers request answer) {program : Program S A E V}
    {events history : History A L} {result : Except E V} {post : LocalPost A E V L}
    (follows : Follows program events (.ended result)) (holds : localWp answers monitor program post history) :
    post result (events.reverse ++ history) := by
  generalize ends : Thread.ended result = ended at follows
  induction follows generalizing history with
  | done =>
      cases ends
      exact holds
  | failed =>
      cases ends
      exact holds
  | read state rest ih => exact ih (holds state) ends
  | store rest ih => exact ih holds ends
  | @call request next events thread answer rest ih =>
      rw [List.reverse_cons, List.append_assoc]
      exact ih (holds answer (admitted request answer)).2 ends
  | waiting => cases ends
  | @await request next events thread answer rest ih =>
      rw [List.reverse_cons, List.reverse_cons, List.append_assoc, List.append_assoc]
      exact ih (holds.2 answer (admitted request answer)).2 ends

end Rules

/-- A local contract has the monitor of the own history and no invariant. -/
def localContract (rules : Semantics S A E V L) (monitor : History A L → Event A L → Prop) :
    Contract S A L where
  admits := rules.admits
  monitor trace me event := monitor (own me trace) event
  rely _ _ := True
  invariant _ _ := True

section Systems

variable {rules : Semantics S A E V L} {initial : S} {answers : (request : C) → A request → Prop}
  {monitor : History A L → Event A L → Prop}

/-- Other threads leave the own history as it is, so the local precondition is enough for the contract. -/
theorem wp_of_localWp (admitted : ∀ {me state trace request answer}, rules.admits me state trace request answer →
      answers request answer) {me : Nat} {program : Program S A E W} {post : LocalPost A E W L} {state : S}
    {trace : Trace A L} (holds : localWp answers monitor program post (own me trace)) :
    wp (localContract rules monitor) me program (fun result _ trace => post result (own me trace))
      state trace := by
  induction program generalizing state trace with
  | done value => exact holds
  | failed error => exact holds
  | read next ih => exact ih state (holds state)
  | store stored next ih => exact ⟨trivial, ih holds⟩
  | call request next ih =>
      intro answer admits
      have after := holds answer (admitted admits)
      refine ⟨after.1, ih answer ?_⟩
      rw [own_cons_self]
      exact after.2
  | await request next ih =>
      refine ⟨holds.1, trivial, ?_⟩
      intro state' trace' _ extension _ answer admits
      have same : own me trace' = .issued request :: own me trace := by
        rw [extension.own_eq, own_cons_self]
      have after := holds.2 answer (admitted admits)
      refine ⟨?_, ih answer ?_⟩
      · change monitor (own me trace') _
        rw [same]
        exact after.1
      · rw [own_cons_self, same]
        exact after.2

/-- Programs that meet the monitor by themselves meet it in every interleaving. -/
theorem Reachable.locally_accepted (admitted : ∀ {me state trace request answer},
      rules.admits me state trace request answer → answers request answer)
    (starts : ∀ label, monitor [] (.started label) ∧
      localWp answers monitor (rules.program label) (fun _ _ => True) [.started label])
    {system : System S A E V L} (reached : Reachable rules initial system) :
    Accepted (fun trace me event => monitor (own me trace) event) system.trace := by
  have proved : (localContract rules monitor).Proved rules initial := by
    refine ⟨rfl, fun _ => trivial, fun _ _ _ _ _ => trivial, trivial, ?_, fun _ _ _ _ _ => ⟨trivial, trivial⟩⟩
    intro state trace me label _ _ fresh
    have none : own me trace = [] := by
      apply List.eq_nil_iff_forall_not_mem.mpr
      intro event member
      exact fresh event (mem_own.mp member)
    constructor
    · change monitor (own me trace) _
      rw [none]
      exact (starts label).1
    · apply wp_mono (fun _ _ _ _ => trivial)
      apply wp_of_localWp admitted
      rw [own_cons_self, none]
      exact (starts label).2
  exact (proved.reachable reached).2

/-- Each event of a thread of such programs was accepted after some part of its own history. -/
theorem Reachable.exists_accepted (admitted : ∀ {me state trace request answer},
      rules.admits me state trace request answer → answers request answer)
    (starts : ∀ label, monitor [] (.started label) ∧
      localWp answers monitor (rules.program label) (fun _ _ => True) [.started label])
    {system : System S A E V L} (reached : Reachable rules initial system) {me : Nat} {event : Event A L}
    (member : (me, event) ∈ system.trace) :
    ∃ history, event :: history <:+ own me system.trace ∧ monitor history event := by
  obtain ⟨earlier, suffix⟩ := exists_cons_suffix member
  refine ⟨own me earlier, ?_, reached.locally_accepted admitted starts me event earlier suffix⟩
  have inside := own_suffix me suffix
  rwa [own_cons_self] at inside

end Systems

/-- A monitor that allows one event of a kind after the own history gives each of them a thread of its own. -/
theorem nodup_threads_of_accepted {kind : Event A L → Bool} {trace : Trace A L}
    (accepted : Accepted (fun trace me event => kind event = true → (own me trace).any kind = false) trace) :
    ((trace.filter fun pair => kind pair.2).map Prod.fst).Nodup := by
  induction trace with
  | nil => exact List.nodup_nil
  | cons pair trace ih =>
      obtain ⟨me, event⟩ := pair
      obtain ⟨newest, older⟩ := accepted_cons.mp accepted
      cases isKind : kind event with
      | false =>
          rw [List.filter_cons_of_neg (by simp [isKind])]
          exact ih older
      | true =>
          rw [List.filter_cons_of_pos (by simp [isKind]), List.map_cons]
          refine List.nodup_cons.mpr ⟨fun again => ?_, ih older⟩
          obtain ⟨⟨index, event'⟩, found, rfl⟩ := List.mem_map.mp again
          obtain ⟨inside, isKind'⟩ := List.mem_filter.mp found
          have absent := List.any_eq_false.mp (newest isKind) event' (mem_own.mpr inside)
          exact absent isKind'

end Async
