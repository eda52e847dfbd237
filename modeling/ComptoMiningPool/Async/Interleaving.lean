import ComptoMiningPool.Async.Program

/-
This file defines cooperative interleavings of asynchronous programs and proves the rule that
carries an invariant and a history monitor through every interleaving.
-/

namespace Async

/-- A trace tags each event with the thread that it belongs to, newest first. -/
abbrev Trace {C : Type} (A : C → Type) (L : Type) := List (Nat × Event A L)

/-- A thread waits for the answer of one await or has ended. -/
inductive Thread (S : Type) {C : Type} (A : C → Type) (E V : Type) where
  | waiting (request : C) (next : A request → Program S A E V)
  | ended (result : Except E V)

/-- A system runs its threads one segment at a time over one shared state. -/
structure System (S : Type) {C : Type} (A : C → Type) (E V L : Type) where
  state : S
  trace : Trace A L
  threads : List (Thread S A E V)

/-- The semantics names the programs that start and the answers that the environment may give. -/
structure Semantics (S : Type) {C : Type} (A : C → Type) (E V L : Type) where
  program : L → Program S A E V
  mayStart : S → Trace A L → L → Prop
  admits : Nat → S → Trace A L → (request : C) → A request → Prop
  disturbs : S → S → Prop

variable {S C E V W L : Type} {A : C → Type}

/-- A segment runs one thread from a resumption to its next await or its end. -/
inductive Segment (rules : Semantics S A E V L) (me : Nat) :
    Program S A E V → S → Trace A L → Thread S A E V → S → Trace A L → Prop where
  | done {value state trace} : Segment rules me (.done value) state trace (.ended (.ok value)) state trace
  | failed {error state trace} :
      Segment rules me (.failed error) state trace (.ended (.error error)) state trace
  | read {next state trace thread state' trace'}
      (rest : Segment rules me (next state) state trace thread state' trace') :
      Segment rules me (.read next) state trace thread state' trace'
  | store {stored next state trace thread state' trace'}
      (rest : Segment rules me next stored trace thread state' trace') :
      Segment rules me (.store stored next) state trace thread state' trace'
  | call {request next state trace thread state' trace'} (answer : A request)
      (admitted : rules.admits me state trace request answer)
      (rest : Segment rules me (next answer) state ((me, .called request answer) :: trace)
        thread state' trace') :
      Segment rules me (.call request next) state trace thread state' trace'
  | await {request next state trace} :
      Segment rules me (.await request next) state trace (.waiting request next) state
        ((me, .issued request) :: trace)

/-- A step starts a program, resumes one waiting thread, or lets the environment change the state. -/
inductive Step (rules : Semantics S A E V L) : System S A E V L → System S A E V L → Prop where
  | start {system thread state' trace'} (label : L)
      (enabled : rules.mayStart system.state system.trace label)
      (segment : Segment rules system.threads.length (rules.program label) system.state
        ((system.threads.length, .started label) :: system.trace) thread state' trace') :
      Step rules system ⟨state', trace', system.threads ++ [thread]⟩
  | resume {system request next thread state' trace'} (index : Nat)
      (waiting : system.threads[index]? = some (.waiting request next)) (answer : A request)
      (admitted : rules.admits index system.state system.trace request answer)
      (segment : Segment rules index (next answer) system.state
        ((index, .answered request answer) :: system.trace) thread state' trace') :
      Step rules system ⟨state', trace', system.threads.set index thread⟩
  | disturb {system} (state' : S) (disturbed : rules.disturbs system.state state') :
      Step rules system { system with state := state' }

/-- A system is reachable when finitely many steps lead to it from the empty thread list. -/
def Reachable (rules : Semantics S A E V L) (initial : S) (system : System S A E V L) : Prop :=
  Relation.ReflTransGen (Step rules) ⟨initial, [], []⟩ system

/-- A segment only adds events of its own thread. -/
theorem Segment.added {rules : Semantics S A E V L} {me : Nat} {program : Program S A E V} {state state' : S}
    {trace trace' : Trace A L} {thread : Thread S A E V}
    (segment : Segment rules me program state trace thread state' trace') :
    ∃ added : Trace A L, trace' = added ++ trace ∧ ∀ pair ∈ added, pair.1 = me := by
  induction segment with
  | done => exact ⟨[], rfl, by simp⟩
  | failed => exact ⟨[], rfl, by simp⟩
  | read rest ih => exact ih
  | store rest ih => exact ih
  | call answer admitted rest ih =>
      obtain ⟨added, rfl, mine⟩ := ih
      refine ⟨added ++ [(me, .called _ answer)], by simp, ?_⟩
      intro pair member
      rcases List.mem_append.mp member with member | member
      · exact mine pair member
      · rw [List.mem_singleton.mp member]
  | await =>
      refine ⟨[_], rfl, ?_⟩
      intro pair member
      rw [List.mem_singleton.mp member]

/-- Each event of a reachable system belongs to one of its threads. -/
theorem Reachable.index_lt {rules : Semantics S A E V L} {initial : S} {system : System S A E V L}
    (reached : Reachable rules initial system) : ∀ pair ∈ system.trace, pair.1 < system.threads.length := by
  induction reached with
  | refl => exact fun _ member => nomatch member
  | @tail before _ _ step ih =>
      intro pair member
      cases step with
      | start label enabled segment =>
          obtain ⟨added, rfl, mine⟩ := segment.added
          rw [List.length_append, List.length_singleton]
          rcases List.mem_append.mp member with member | member
          · rw [mine pair member]
            exact Nat.lt_succ_self _
          · rcases List.mem_cons.mp member with rfl | member
            · exact Nat.lt_succ_self _
            · exact Nat.lt_succ_of_lt (ih pair member)
      | resume index waiting answer admitted segment =>
          obtain ⟨added, rfl, mine⟩ := segment.added
          obtain ⟨inside, _⟩ := List.getElem?_eq_some_iff.mp waiting
          rw [List.length_set]
          rcases List.mem_append.mp member with member | member
          · rw [mine pair member]
            exact inside
          · rcases List.mem_cons.mp member with rfl | member
            · exact inside
            · exact ih pair member
      | disturb state' disturbed => exact ih pair member

/-- Narrow rules allow the steps of wide rules only. -/
structure Semantics.Within (narrow wide : Semantics S A E V L) : Prop where
  program : narrow.program = wide.program
  mayStart : ∀ {state trace label}, narrow.mayStart state trace label → wide.mayStart state trace label
  admits : ∀ {me state trace request answer}, narrow.admits me state trace request answer →
    wide.admits me state trace request answer
  disturbs : ∀ {before after}, narrow.disturbs before after → wide.disturbs before after

theorem Segment.within {narrow wide : Semantics S A E V L} (within : narrow.Within wide) {me : Nat}
    {program : Program S A E V} {state state' : S} {trace trace' : Trace A L} {thread : Thread S A E V}
    (segment : Segment narrow me program state trace thread state' trace') :
    Segment wide me program state trace thread state' trace' := by
  induction segment with
  | done => exact .done
  | failed => exact .failed
  | read rest ih => exact .read ih
  | store rest ih => exact .store ih
  | call answer admitted rest ih => exact .call answer (within.admits admitted) ih
  | await => exact .await

theorem Step.within {narrow wide : Semantics S A E V L} (within : narrow.Within wide)
    {before after : System S A E V L} (step : Step narrow before after) : Step wide before after := by
  cases step with
  | start label enabled segment =>
      rw [within.program] at segment
      exact .start label (within.mayStart enabled) (segment.within within)
  | resume index waiting answer admitted segment =>
      exact .resume index waiting answer (within.admits admitted) (segment.within within)
  | disturb state' disturbed => exact .disturb state' (within.disturbs disturbed)

/-- Narrow rules reach the systems of wide rules only. -/
theorem Reachable.within {narrow wide : Semantics S A E V L} (within : narrow.Within wide) {initial : S}
    {system : System S A E V L} (reached : Reachable narrow initial system) :
    Reachable wide initial system := by
  induction reached with
  | refl => exact .refl
  | tail _ step ih => exact ih.tail (step.within within)

/-- The monitor accepts each event after the events that precede it. -/
def Accepted (monitor : Trace A L → Nat → Event A L → Prop) (trace : Trace A L) : Prop :=
  ∀ index event earlier, (index, event) :: earlier <:+ trace → monitor earlier index event

@[simp] theorem accepted_nil (monitor : Trace A L → Nat → Event A L → Prop) :
    Accepted monitor ([] : Trace A L) := by
  intro index event earlier suffix
  simp at suffix

theorem accepted_cons {monitor : Trace A L → Nat → Event A L → Prop} {index : Nat}
    {event : Event A L} {trace : Trace A L} :
    Accepted monitor ((index, event) :: trace) ↔ monitor trace index event ∧ Accepted monitor trace := by
  constructor
  · intro accepted
    refine ⟨accepted index event trace List.suffix_rfl, ?_⟩
    intro index' event' earlier suffix
    exact accepted index' event' earlier (suffix.trans (List.suffix_cons _ _))
  · rintro ⟨newest, older⟩ index' event' earlier suffix
    rcases List.suffix_cons_iff.mp suffix with equal | suffix
    · injection equal with pair tail
      injection pair with sameIndex sameEvent
      subst sameIndex sameEvent tail
      exact newest
    · exact older index' event' earlier suffix

theorem Accepted.mono {strong weak : Trace A L → Nat → Event A L → Prop} {trace : Trace A L}
    (accepted : Accepted strong trace)
    (implies : ∀ earlier index event, strong earlier index event → weak earlier index event) :
    Accepted weak trace := by
  intro index event earlier suffix
  exact implies _ _ _ (accepted index event earlier suffix)

/-- An entry of a trace was the newest one when it was recorded. -/
theorem exists_cons_suffix {Entry : Type} {entry : Entry} {trace : List Entry} (member : entry ∈ trace) :
    ∃ earlier, entry :: earlier <:+ trace := by
  obtain ⟨later, earlier, rfl⟩ := List.append_of_mem member
  exact ⟨earlier, List.suffix_append _ _⟩

/-- Each event of an accepted trace was accepted after some part of the trace. -/
theorem Accepted.of_mem {monitor : Trace A L → Nat → Event A L → Prop} {trace : Trace A L}
    (accepted : Accepted monitor trace) {index : Nat} {event : Event A L}
    (member : (index, event) ∈ trace) : ∃ earlier, earlier ⊆ trace ∧ monitor earlier index event := by
  obtain ⟨later, earlier, rfl⟩ := List.append_of_mem member
  refine ⟨earlier, ?_, accepted index event earlier (List.suffix_append _ _)⟩
  intro pair inside
  exact List.mem_append_right _ (List.mem_cons_of_mem _ inside)

/-- A monitor that pairs each event of one kind with an earlier event of another kind of the same
thread, and that allows one pair a thread, bounds the first kind by the second. -/
theorem countP_le_of_accepted {later earlier : Event A L → Bool} {trace : Trace A L}
    (accepted : Accepted (fun trace me event => later event = true →
      (∃ event', (me, event') ∈ trace ∧ earlier event' = true) ∧
        ∀ event', (me, event') ∈ trace → later event' = false) trace) :
    (trace.countP fun pair => later pair.2) ≤ trace.countP fun pair => earlier pair.2 := by
  have bounded : ((trace.filter fun pair => later pair.2).map Prod.fst).Nodup ∧
      ((trace.filter fun pair => later pair.2).map Prod.fst) ⊆
        ((trace.filter fun pair => earlier pair.2).map Prod.fst) := by
    induction trace with
    | nil => simp
    | cons pair trace ih =>
        obtain ⟨me, event⟩ := pair
        obtain ⟨newest, older⟩ := accepted_cons.mp accepted
        obtain ⟨distinct, subset⟩ := ih older
        have grown : ((trace.filter fun pair => earlier pair.2).map Prod.fst) ⊆
            ((((me, event) :: trace).filter fun pair => earlier pair.2).map Prod.fst) :=
          List.map_subset _ ((List.sublist_cons_self _ _).filter _).subset
        cases isLater : later event with
        | false =>
            rw [List.filter_cons_of_neg (by simp [isLater])]
            exact ⟨distinct, List.Subset.trans subset grown⟩
        | true =>
            obtain ⟨⟨event', member, isEarlier⟩, first⟩ := newest isLater
            rw [List.filter_cons_of_pos (by simp [isLater]), List.map_cons]
            constructor
            · apply List.nodup_cons.mpr
              refine ⟨?_, distinct⟩
              intro again
              obtain ⟨⟨index, event''⟩, found, rfl⟩ := List.mem_map.mp again
              obtain ⟨known, isLater'⟩ := List.mem_filter.mp found
              rw [first _ known] at isLater'
              cases isLater'
            · apply List.cons_subset.mpr
              refine ⟨grown ?_, List.Subset.trans subset grown⟩
              exact List.mem_map.mpr ⟨(me, event'), List.mem_filter.mpr ⟨member, isEarlier⟩, rfl⟩
  have length := (bounded.1.subperm bounded.2).length_le
  rwa [List.length_map, List.length_map, ← List.countP_eq_length_filter,
    ← List.countP_eq_length_filter] at length

/-- A monitor that allows one event of a kind in each thread makes two such events of one thread equal. -/
theorem eq_of_accepted {kind : Event A L → Prop} {trace : Trace A L}
    (accepted : Accepted (fun trace me event => kind event → ∀ event', (me, event') ∈ trace → ¬ kind event')
      trace) {me : Nat} {first second : Event A L} (isFirst : kind first) (isSecond : kind second)
    (firstMember : (me, first) ∈ trace) (secondMember : (me, second) ∈ trace) : first = second := by
  induction trace with
  | nil => cases firstMember
  | cons pair trace ih =>
      obtain ⟨index, event⟩ := pair
      obtain ⟨newest, older⟩ := accepted_cons.mp accepted
      rcases List.mem_cons.mp firstMember with equal | earlierFirst
      · cases equal
        rcases List.mem_cons.mp secondMember with equal | earlierSecond
        · exact (Prod.mk.inj equal).2.symm
        · exact absurd isSecond (newest isFirst second earlierSecond)
      · rcases List.mem_cons.mp secondMember with equal | earlierSecond
        · cases equal
          exact absurd isFirst (newest isSecond first earlierFirst)
        · exact ih older earlierFirst earlierSecond

/-- Such a monitor gives each of the events a thread of its own. -/
theorem nodup_of_accepted {V : Type} {kind : Event A L → Option V} {trace : Trace A L}
    (accepted : Accepted (fun trace me event => (kind event).isSome = true →
      ∀ event', (me, event') ∈ trace → kind event' = none) trace) :
    ((trace.filterMap fun pair => (kind pair.2).map (Prod.mk pair.1)).map Prod.fst).Nodup := by
  induction trace with
  | nil => exact List.nodup_nil
  | cons pair trace ih =>
      obtain ⟨me, event⟩ := pair
      obtain ⟨newest, older⟩ := accepted_cons.mp accepted
      cases isKind : kind event with
      | none =>
          rw [List.filterMap_cons_none (by simp [isKind])]
          exact ih older
      | some value =>
          rw [@List.filterMap_cons_some _ _ _ _ _ (me, value) (by simp [isKind]), List.map_cons]
          apply List.nodup_cons.mpr
          refine ⟨?_, ih older⟩
          intro again
          obtain ⟨⟨index, value'⟩, member, rfl⟩ := List.mem_map.mp again
          obtain ⟨⟨other, event'⟩, inside, mapped⟩ := List.mem_filterMap.mp member
          obtain ⟨value'', isKind', equal⟩ := Option.map_eq_some_iff.mp mapped
          cases equal
          have absent : kind event' = none := newest (by simp [isKind]) event' inside
          rw [absent] at isKind'
          cases isKind'

/-- A later trace of another thread adds no event of this thread. -/
def Extends (me : Nat) (before after : Trace A L) : Prop :=
  ∃ added : Trace A L, after = added ++ before ∧ ∀ pair ∈ added, pair.1 ≠ me

theorem Extends.refl (me : Nat) (trace : Trace A L) : Extends me trace trace :=
  ⟨[], rfl, by simp⟩

theorem Extends.trans {me : Nat} {first second third : Trace A L}
    (left : Extends me first second) (right : Extends me second third) : Extends me first third := by
  obtain ⟨early, rfl, earlyOther⟩ := left
  obtain ⟨late, rfl, lateOther⟩ := right
  refine ⟨late ++ early, by simp, ?_⟩
  intro pair member
  rcases List.mem_append.mp member with member | member
  · exact lateOther pair member
  · exact earlyOther pair member

theorem Extends.suffix {me : Nat} {before after : Trace A L} (extension : Extends me before after) :
    before <:+ after := by
  obtain ⟨added, rfl, _⟩ := extension
  exact List.suffix_append _ _

theorem Extends.mem {me : Nat} {before after : Trace A L} (extension : Extends me before after)
    {pair : Nat × Event A L} (member : pair ∈ before) : pair ∈ after :=
  extension.suffix.subset member

/-- Each event of this thread was there before the other threads ran. -/
theorem Extends.mem_of_mine {me : Nat} {before after : Trace A L} (extension : Extends me before after)
    {event : Event A L} (member : (me, event) ∈ after) : (me, event) ∈ before := by
  obtain ⟨added, rfl, other⟩ := extension
  rcases List.mem_append.mp member with member | member
  · exact absurd rfl (other _ member)
  · exact member

/-- The events that one thread added, newest first. -/
def own (me : Nat) (trace : Trace A L) : History A L :=
  trace.filterMap fun pair => if pair.1 = me then some pair.2 else none

@[simp] theorem own_cons_self (me : Nat) (event : Event A L) (trace : Trace A L) :
    own me ((me, event) :: trace) = event :: own me trace := by
  simp [own]

@[simp] theorem mem_own {me : Nat} {event : Event A L} {trace : Trace A L} :
    event ∈ own me trace ↔ (me, event) ∈ trace := by
  simp only [own, List.mem_filterMap, Option.ite_none_right_eq_some, Option.some.injEq]
  constructor
  · rintro ⟨⟨index, event'⟩, member, rfl, rfl⟩
    exact member
  · intro member
    exact ⟨(me, event), member, rfl, rfl⟩

/-- Other threads leave the own events of a thread as they are. -/
theorem Extends.own_eq {me : Nat} {before after : Trace A L} (extension : Extends me before after) :
    own me after = own me before := by
  obtain ⟨added, rfl, other⟩ := extension
  have none : added.filterMap (fun pair => if pair.1 = me then some pair.2 else none) = [] := by
    apply List.filterMap_eq_nil_iff.mpr
    intro pair member
    exact if_neg (other pair member)
  rw [own, List.filterMap_append, none, List.nil_append, own]

/-- A contract fixes the monitor, the change that a thread may make, and the shared invariant. -/
structure Contract (S : Type) {C : Type} (A : C → Type) (L : Type) where
  admits : Nat → S → Trace A L → (request : C) → A request → Prop
  monitor : Trace A L → Nat → Event A L → Prop
  rely : S → S → Prop
  invariant : S → Trace A L → Prop

/-- A postcondition speaks about the result, the state, and the trace of one thread. -/
abbrev Post (S : Type) {C : Type} (A : C → Type) (E V L : Type) :=
  Except E V → S → Trace A L → Prop

/-- The weakest precondition lets other threads run at each await. -/
def wp (contract : Contract S A L) (me : Nat) :
    Program S A E V → Post S A E V L → S → Trace A L → Prop
  | .done value, post, state, trace => post (.ok value) state trace
  | .failed error, post, state, trace => post (.error error) state trace
  | .read next, post, state, trace => wp contract me (next state) post state trace
  | .store stored next, post, state, trace =>
      contract.rely state stored ∧ wp contract me next post stored trace
  | .call request next, post, state, trace =>
      ∀ answer, contract.admits me state trace request answer →
        contract.monitor trace me (.called request answer) ∧
          wp contract me (next answer) post state ((me, .called request answer) :: trace)
  | .await request next, post, state, trace =>
      contract.monitor trace me (.issued request) ∧
        contract.invariant state ((me, .issued request) :: trace) ∧
        ∀ state' trace', contract.rely state state' →
          Extends me ((me, .issued request) :: trace) trace' → contract.invariant state' trace' →
          ∀ answer, contract.admits me state' trace' request answer →
            contract.monitor trace' me (.answered request answer) ∧
              wp contract me (next answer) post state' ((me, .answered request answer) :: trace')

section Rules

variable {contract : Contract S A L} {me : Nat}

@[simp] theorem wp_ofExcept {result : Except E V} {post : Post S A E V L} {state : S}
    {trace : Trace A L} :
    wp contract me (Program.ofExcept result) post state trace ↔ post result state trace := by
  cases result <;> exact Iff.rfl

/-- A weaker postcondition keeps the precondition. -/
theorem wp_mono {program : Program S A E V} {strong weak : Post S A E V L} {state : S}
    {trace : Trace A L} (implies : ∀ result state trace, strong result state trace → weak result state trace)
    (holds : wp contract me program strong state trace) : wp contract me program weak state trace := by
  induction program generalizing state trace with
  | done value => exact implies _ _ _ holds
  | failed error => exact implies _ _ _ holds
  | read next ih => exact ih state holds
  | store stored next ih => exact ⟨holds.1, ih holds.2⟩
  | call request next ih =>
      intro answer admitted
      exact ⟨(holds answer admitted).1, ih answer (holds answer admitted).2⟩
  | await request next ih =>
      refine ⟨holds.1, holds.2.1, ?_⟩
      intro state' trace' relied extension kept answer admitted
      have resumed := holds.2.2 state' trace' relied extension kept answer admitted
      exact ⟨resumed.1, ih answer resumed.2⟩

/-- A sequence needs the second precondition after the first program. -/
theorem wp_bind {program : Program S A E V} {rest : V → Program S A E W} {post : Post S A E W L}
    {state : S} {trace : Trace A L} :
    wp contract me (program.bind rest) post state trace ↔
      wp contract me program (fun result state trace => match result with
        | .ok value => wp contract me (rest value) post state trace
        | .error error => post (.error error) state trace) state trace := by
  induction program generalizing state trace with
  | done value => exact Iff.rfl
  | failed error => exact Iff.rfl
  | read next ih => exact ih state
  | store stored next ih => exact and_congr Iff.rfl ih
  | call request next ih =>
      exact forall_congr' fun answer => forall_congr' fun _ => and_congr Iff.rfl (ih answer)
  | await request next ih =>
      refine and_congr Iff.rfl (and_congr Iff.rfl ?_)
      exact forall_congr' fun state' => forall_congr' fun trace' => forall_congr' fun _ =>
        forall_congr' fun _ => forall_congr' fun _ => forall_congr' fun answer =>
          forall_congr' fun _ => and_congr Iff.rfl (ih answer)

/-- A handler needs its precondition wherever the program can fail. -/
theorem wp_attempt {program : Program S A E V} {handler : E → Program S A E V}
    {post : Post S A E V L} {state : S} {trace : Trace A L} :
    wp contract me (program.attempt handler) post state trace ↔
      wp contract me program (fun result state trace => match result with
        | .ok value => post (.ok value) state trace
        | .error error => wp contract me (handler error) post state trace) state trace := by
  induction program generalizing state trace with
  | done value => exact Iff.rfl
  | failed error => exact Iff.rfl
  | read next ih => exact ih state
  | store stored next ih => exact and_congr Iff.rfl ih
  | call request next ih =>
      exact forall_congr' fun answer => forall_congr' fun _ => and_congr Iff.rfl (ih answer)
  | await request next ih =>
      refine and_congr Iff.rfl (and_congr Iff.rfl ?_)
      exact forall_congr' fun state' => forall_congr' fun trace' => forall_congr' fun _ =>
        forall_congr' fun _ => forall_congr' fun _ => forall_congr' fun answer =>
          forall_congr' fun _ => and_congr Iff.rfl (ih answer)

/-- A join runs the program and then waits for one more turn. -/
theorem wp_joined {turn : C} {program : Program S A E V} {post : Post S A E V L} {state : S}
    {trace : Trace A L} :
    wp contract me (program.joined turn) post state trace ↔
      wp contract me program (fun result => wp contract me
        (.await turn fun _ => Program.ofExcept result) post) state trace := by
  induction program generalizing state trace with
  | done value => exact Iff.rfl
  | failed error => exact Iff.rfl
  | read next ih => exact ih state
  | store stored next ih => exact and_congr Iff.rfl ih
  | call request next ih =>
      exact forall_congr' fun answer => forall_congr' fun _ => and_congr Iff.rfl (ih answer)
  | await request next ih =>
      refine and_congr Iff.rfl (and_congr Iff.rfl ?_)
      exact forall_congr' fun state' => forall_congr' fun trace' => forall_congr' fun _ =>
        forall_congr' fun _ => forall_congr' fun _ => forall_congr' fun answer =>
          forall_congr' fun _ => and_congr Iff.rfl (ih answer)

/-- A confined program makes allowed calls only and stores nothing. -/
def Confined (allowed : C → Prop) : Program S A E V → Prop
  | .done _ => True
  | .failed _ => True
  | .read next => ∀ state, Confined allowed (next state)
  | .store _ _ => False
  | .call request next => allowed request ∧ ∀ answer, Confined allowed (next answer)
  | .await request next => allowed request ∧ ∀ answer, Confined allowed (next answer)

section Confinement

variable {allowed : C → Prop}

@[simp] theorem confined_ofExcept (result : Except E V) :
    Confined allowed (Program.ofExcept result : Program S A E V) := by
  cases result <;> trivial

theorem Confined.bind {program : Program S A E V} {rest : V → Program S A E W}
    (first : Confined allowed program) (second : ∀ value, Confined allowed (rest value)) :
    Confined allowed (program.bind rest) := by
  induction program with
  | done value => exact second value
  | failed error => trivial
  | read next ih => exact fun state => ih state (first state)
  | store stored next ih => exact first.elim
  | call request next ih => exact ⟨first.1, fun answer => ih answer (first.2 answer)⟩
  | await request next ih => exact ⟨first.1, fun answer => ih answer (first.2 answer)⟩

theorem Confined.attempt {program : Program S A E V} {handler : E → Program S A E V}
    (first : Confined allowed program) (second : ∀ error, Confined allowed (handler error)) :
    Confined allowed (program.attempt handler) := by
  induction program with
  | done value => trivial
  | failed error => exact second error
  | read next ih => exact fun state => ih state (first state)
  | store stored next ih => exact first.elim
  | call request next ih => exact ⟨first.1, fun answer => ih answer (first.2 answer)⟩
  | await request next ih => exact ⟨first.1, fun answer => ih answer (first.2 answer)⟩

theorem Confined.joined {program : Program S A E V} {turn : C} (first : Confined allowed program)
    (next : allowed turn) : Confined allowed (program.joined turn) := by
  induction program with
  | done value => exact ⟨next, fun _ => trivial⟩
  | failed error => exact ⟨next, fun _ => trivial⟩
  | read next ih => exact fun state => ih state (first state)
  | store stored next ih => exact first.elim
  | call request next ih => exact ⟨first.1, fun answer => ih answer (first.2 answer)⟩
  | await request next ih => exact ⟨first.1, fun answer => ih answer (first.2 answer)⟩

/-- A confined program leaves the state as it is. -/
theorem Confined.run_state {program : Program S A E V} (confined : Confined allowed program)
    (environment : History A L → (request : C) → A request) (state : S) (history : History A L) :
    (program.run environment state history).state = state := by
  induction program generalizing history with
  | done value => rfl
  | failed error => rfl
  | read next ih => exact ih state (confined state) history
  | store stored next ih => exact confined.elim
  | call request next ih => exact ih _ (confined.2 _) _
  | await request next ih => exact ih _ (confined.2 _) _

/-- A confined program keeps an invariant that its calls do not touch. -/
theorem wp_of_confined {program : Program S A E V} {state : S} {trace : Trace A L}
    (confined : Confined allowed program)
    (quiet : ∀ state trace event, contract.invariant state trace →
      (match event with
        | .started _ => False
        | .called request _ => allowed request
        | .issued request => allowed request
        | .answered request _ => allowed request) →
      contract.monitor trace me event ∧ contract.invariant state ((me, event) :: trace))
    (kept : contract.invariant state trace) :
    wp contract me program (fun _ => contract.invariant) state trace := by
  induction program generalizing state trace with
  | done value => exact kept
  | failed error => exact kept
  | read next ih => exact ih state (confined state) kept
  | store stored next ih => exact confined.elim
  | call request next ih =>
      intro answer _
      have after := quiet state trace (.called request answer) kept confined.1
      exact ⟨after.1, ih answer (confined.2 answer) after.2⟩
  | await request next ih =>
      have issued := quiet state trace (.issued request) kept confined.1
      refine ⟨issued.1, issued.2, ?_⟩
      intro state' trace' _ _ kept' answer _
      have answered := quiet state' trace' (.answered request answer) kept' confined.1
      exact ⟨answered.1, ih answer (confined.2 answer) answered.2⟩

end Confinement

end Rules

/-- A proven contract holds at the start, at each new program, and at each disturbance. -/
structure Contract.Proved (contract : Contract S A L) (rules : Semantics S A E V L) (initial : S) : Prop where
  sameAnswers : contract.admits = rules.admits
  relyRefl : ∀ state, contract.rely state state
  relyTrans : ∀ first second third, contract.rely first second → contract.rely second third →
    contract.rely first third
  initially : contract.invariant initial []
  starts : ∀ state trace me label, contract.invariant state trace → rules.mayStart state trace label →
    (∀ event, (me, event) ∉ trace) → contract.monitor trace me (.started label) ∧
      wp contract me (rules.program label) (fun _ => contract.invariant) state
        ((me, .started label) :: trace)
  disturbed : ∀ state state' trace, contract.invariant state trace → rules.disturbs state state' →
    contract.rely state state' ∧ contract.invariant state' trace

/-- A waiting thread keeps its precondition while the other threads run. -/
def Resumable (contract : Contract S A L) (me : Nat) (state : S) (trace : Trace A L) :
    Thread S A E V → Prop
  | .ended _ => True
  | .waiting request next =>
      ∀ state' trace', contract.rely state state' → Extends me trace trace' →
        contract.invariant state' trace' → ∀ answer, contract.admits me state' trace' request answer →
          contract.monitor trace' me (.answered request answer) ∧
            wp contract me (next answer) (fun _ => contract.invariant) state'
              ((me, .answered request answer) :: trace')

theorem Resumable.later {contract : Contract S A L} {me : Nat} {state state' : S}
    {trace trace' : Trace A L} {thread : Thread S A E V}
    (trans : ∀ first second third, contract.rely first second → contract.rely second third →
      contract.rely first third)
    (resumable : Resumable contract me state trace thread) (relied : contract.rely state state')
    (extension : Extends me trace trace') : Resumable contract me state' trace' thread := by
  cases thread with
  | ended result => trivial
  | waiting request next =>
      intro last lastTrace lastRelied lastExtension
      exact resumable last lastTrace (trans _ _ _ relied lastRelied) (extension.trans lastExtension)

/-- A segment that meets its precondition keeps the invariant and satisfies the monitor. -/
theorem Segment.sound {rules : Semantics S A E V L} {contract : Contract S A L} {initial : S}
    (proved : contract.Proved rules initial) {me : Nat} {program : Program S A E V}
    {state state' : S} {trace trace' : Trace A L} {thread : Thread S A E V}
    (segment : Segment rules me program state trace thread state' trace')
    (holds : wp contract me program (fun _ => contract.invariant) state trace)
    (accepted : Accepted contract.monitor trace) :
    contract.rely state state' ∧ contract.invariant state' trace' ∧
      Accepted contract.monitor trace' ∧ Resumable contract me state' trace' thread ∧
      ∃ added : Trace A L, trace' = added ++ trace ∧ ∀ pair ∈ added, pair.1 = me := by
  induction segment with
  | done => exact ⟨proved.relyRefl _, holds, accepted, trivial, [], rfl, by simp⟩
  | failed => exact ⟨proved.relyRefl _, holds, accepted, trivial, [], rfl, by simp⟩
  | read rest ih => exact ih holds accepted
  | store rest ih =>
      obtain ⟨relied, others⟩ := ih holds.2 accepted
      exact ⟨proved.relyTrans _ _ _ holds.1 relied, others⟩
  | call answer admitted rest ih =>
      have continued := holds answer (proved.sameAnswers ▸ admitted)
      obtain ⟨relied, kept, allowed, resumable, added, rfl, mine⟩ :=
        ih continued.2 (accepted_cons.mpr ⟨continued.1, accepted⟩)
      refine ⟨relied, kept, allowed, resumable, added ++ [(me, .called _ answer)], by simp, ?_⟩
      intro pair member
      rcases List.mem_append.mp member with member | member
      · exact mine pair member
      · rw [List.mem_singleton.mp member]
  | await =>
      refine ⟨proved.relyRefl _, holds.2.1, accepted_cons.mpr ⟨holds.1, accepted⟩, ?_, [_], rfl, ?_⟩
      · exact holds.2.2
      · intro pair member
        rw [List.mem_singleton.mp member]

/-- The system invariant joins the contract with the waiting threads. -/
structure System.Good (contract : Contract S A L) (system : System S A E V L) : Prop where
  kept : contract.invariant system.state system.trace
  accepted : Accepted contract.monitor system.trace
  tagged : ∀ pair ∈ system.trace, pair.1 < system.threads.length
  resumable : ∀ index thread, system.threads[index]? = some thread →
    Resumable contract index system.state system.trace thread

/-- Each event that one thread adds leaves the other threads their own history. -/
theorem extends_of_other {me other : Nat} (different : me ≠ other) {trace added : Trace A L}
    (mine : ∀ pair ∈ added, pair.1 = me) : Extends other trace (added ++ trace) :=
  ⟨added, rfl, fun pair member => by rw [mine pair member]; exact different⟩

theorem extends_cons {me other : Nat} (different : me ≠ other) {trace : Trace A L}
    {event : Event A L} : Extends other trace ((me, event) :: trace) := by
  refine ⟨[(me, event)], rfl, ?_⟩
  intro pair member
  rw [List.mem_singleton.mp member]
  exact different

/-- One step keeps the system invariant. -/
theorem Step.good {rules : Semantics S A E V L} {contract : Contract S A L} {initial : S}
    (proved : contract.Proved rules initial) {before after : System S A E V L}
    (step : Step rules before after) (good : before.Good contract) : after.Good contract := by
  cases step with
  | start label enabled segment =>
      have fresh : ∀ event, (before.threads.length, event) ∉ before.trace := by
        intro event member
        exact absurd (good.tagged _ member) (Nat.lt_irrefl _)
      obtain ⟨allowed, holds⟩ := proved.starts _ _ _ label good.kept enabled fresh
      obtain ⟨relied, kept, accepted, resumable, added, rfl, mine⟩ :=
        segment.sound proved holds (accepted_cons.mpr ⟨allowed, good.accepted⟩)
      have tagged : ∀ pair ∈ added ++ (before.threads.length, Event.started label) :: before.trace,
          pair.1 < before.threads.length + 1 := by
        intro pair member
        rcases List.mem_append.mp member with member | member
        · rw [mine pair member]; omega
        · rcases List.mem_cons.mp member with equal | member
          · rw [equal]; exact Nat.lt_succ_self _
          · exact Nat.lt_succ_of_lt (good.tagged pair member)
      refine ⟨kept, accepted, by simpa using tagged, ?_⟩
      intro index thread found
      rcases Nat.lt_trichotomy index before.threads.length with below | same | above
      · rw [List.getElem?_append_left below] at found
        have started : Extends index before.trace
            ((before.threads.length, Event.started label) :: before.trace) :=
          extends_cons (by omega)
        exact (good.resumable index thread found).later proved.relyTrans relied
          (started.trans (extends_of_other (by omega) mine))
      · subst same
        simp only [List.getElem?_concat_length, Option.some.injEq] at found
        exact found ▸ resumable
      · rw [List.getElem?_eq_none (by simp; omega)] at found
        cases found
  | resume index waiting answer admitted segment =>
      have inside : index < before.threads.length := by
        by_contra outside
        rw [List.getElem?_eq_none (by omega)] at waiting
        cases waiting
      have resumed := good.resumable index _ waiting before.state before.trace (proved.relyRefl _)
        (Extends.refl _ _) good.kept answer (proved.sameAnswers ▸ admitted)
      obtain ⟨relied, kept, accepted, resumable, added, rfl, mine⟩ :=
        segment.sound proved resumed.2 (accepted_cons.mpr ⟨resumed.1, good.accepted⟩)
      refine ⟨kept, accepted, ?_, ?_⟩
      · intro pair member
        rw [List.length_set]
        rcases List.mem_append.mp member with member | member
        · rw [mine pair member]; exact inside
        · rcases List.mem_cons.mp member with equal | member
          · rw [equal]; exact inside
          · exact good.tagged pair member
      · intro other thread found
        by_cases same : other = index
        · subst same
          rw [List.getElem?_set_self inside, Option.some.injEq] at found
          exact found ▸ resumable
        · rw [List.getElem?_set_ne (Ne.symm same)] at found
          have resumedTrace : Extends other before.trace
              ((index, Event.answered _ answer) :: before.trace) :=
            extends_cons (Ne.symm same)
          exact (good.resumable other thread found).later proved.relyTrans relied
            (resumedTrace.trans (extends_of_other (Ne.symm same) mine))
  | disturb state' disturbed =>
      obtain ⟨relied, kept⟩ := proved.disturbed _ _ _ good.kept disturbed
      refine ⟨kept, good.accepted, good.tagged, ?_⟩
      intro index thread found
      exact (good.resumable index thread found).later proved.relyTrans relied (Extends.refl _ _)

/-- A proven contract holds in every reachable system. -/
theorem Contract.Proved.reachable {rules : Semantics S A E V L} {contract : Contract S A L}
    {initial : S} (proved : contract.Proved rules initial) {system : System S A E V L}
    (reached : Reachable rules initial system) :
    contract.invariant system.state system.trace ∧ Accepted contract.monitor system.trace := by
  have good : system.Good contract := by
    induction reached with
    | refl => exact ⟨proved.initially, accepted_nil _, by simp, by simp⟩
    | tail _ step ih => exact step.good proved ih
  exact ⟨good.kept, good.accepted⟩

end Async
