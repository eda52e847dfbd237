import ComptoMiningPool.Async.Interleaving

/-
This file frames the programs that leave an assertion alone. A frame speaks about states and calls
only, so that its rules need no trace.
-/

namespace Async

/-- A frame names the states, the calls, and the stores that a program keeps to. -/
structure Frame (S C : Type) where
  stable : S → Prop
  allowed : S → C → Prop
  keeps : S → S → Prop

variable {S C E V W L : Type} {A : C → Type}

namespace Frame

/-- A framed program keeps to its frame from a stable state on. -/
def Holds (frame : Frame S C) : Program S A E V → S → Prop
  | .done _, _ => True
  | .failed _, _ => True
  | .read next, state => frame.Holds (next state) state
  | .store stored next, state => frame.keeps state stored ∧ frame.Holds next stored
  | .call request next, state =>
      frame.allowed state request ∧ ∀ answer, frame.Holds (next answer) state
  | .await request next, state =>
      frame.allowed state request ∧
        ∀ state' answer, frame.stable state' → frame.Holds (next answer) state'

/-- The stores of a frame lead from stable states to stable states. -/
def Closed (frame : Frame S C) : Prop :=
  ∀ state stored, frame.stable state → frame.keeps state stored → frame.stable stored

section Rules

variable {frame : Frame S C} {state : S}

@[simp] theorem holds_ofExcept (result : Except E V) :
    frame.Holds (Program.ofExcept result : Program S A E V) state := by
  cases result <;> trivial

theorem Holds.bind (closed : frame.Closed) {program : Program S A E V} {rest : V → Program S A E W}
    (stable : frame.stable state) (first : frame.Holds program state)
    (second : ∀ value state', frame.stable state' → frame.Holds (rest value) state') :
    frame.Holds (program.bind rest) state := by
  induction program generalizing state with
  | done value => exact second value state stable
  | failed error => trivial
  | read next ih => exact ih state stable first
  | store stored next ih => exact ⟨first.1, ih (closed _ _ stable first.1) first.2⟩
  | call request next ih => exact ⟨first.1, fun answer => ih answer stable (first.2 answer)⟩
  | await request next ih =>
      refine ⟨first.1, ?_⟩
      intro state' answer stable'
      exact ih answer stable' (first.2 state' answer stable')

theorem Holds.attempt (closed : frame.Closed) {program : Program S A E V}
    {handler : E → Program S A E V} (stable : frame.stable state) (first : frame.Holds program state)
    (second : ∀ error state', frame.stable state' → frame.Holds (handler error) state') :
    frame.Holds (program.attempt handler) state := by
  induction program generalizing state with
  | done value => trivial
  | failed error => exact second error state stable
  | read next ih => exact ih state stable first
  | store stored next ih => exact ⟨first.1, ih (closed _ _ stable first.1) first.2⟩
  | call request next ih => exact ⟨first.1, fun answer => ih answer stable (first.2 answer)⟩
  | await request next ih =>
      refine ⟨first.1, ?_⟩
      intro state' answer stable'
      exact ih answer stable' (first.2 state' answer stable')

theorem Holds.joined {program : Program S A E V} {turn : C} (first : frame.Holds program state)
    (next : ∀ state, frame.allowed state turn) : frame.Holds (program.joined turn) state := by
  induction program generalizing state with
  | done value => exact ⟨next state, fun _ _ _ => trivial⟩
  | failed error => exact ⟨next state, fun _ _ _ => trivial⟩
  | read next ih => exact ih state first
  | store stored next ih => exact ⟨first.1, ih first.2⟩
  | call request next ih => exact ⟨first.1, fun answer => ih answer (first.2 answer)⟩
  | await request next ih =>
      refine ⟨first.1, ?_⟩
      intro state' answer stable'
      exact ih answer (first.2 state' answer stable')

end Rules

/-- A program keeps to the frame from every stable state on. -/
def Covers (frame : Frame S C) (program : Program S A E V) : Prop :=
  ∀ state, frame.stable state → frame.Holds program state

section Covers

variable {frame : Frame S C}

theorem covers_done (value : V) : frame.Covers (.done value : Program S A E V) := fun _ _ => trivial

theorem covers_failed (error : E) : frame.Covers (.failed error : Program S A E V) := fun _ _ => trivial

theorem covers_ofExcept (result : Except E V) :
    frame.Covers (Program.ofExcept result : Program S A E V) := fun _ _ => holds_ofExcept result

theorem covers_perform {request : C} (allowed : ∀ state, frame.allowed state request) :
    frame.Covers (Program.perform request : Program S A E (A request)) :=
  fun state _ => ⟨allowed state, fun _ => trivial⟩

theorem covers_awaiting {request : C} (allowed : ∀ state, frame.allowed state request) :
    frame.Covers (Program.awaiting request : Program S A E (A request)) :=
  fun state _ => ⟨allowed state, fun _ _ _ => trivial⟩

theorem covers_modify {update : S → S} (keeps : ∀ state, frame.keeps state (update state)) :
    frame.Covers (Program.modify update : Program S A E Unit) :=
  fun state _ => ⟨keeps state, trivial⟩

theorem Covers.bind (closed : frame.Closed) {program : Program S A E V} {rest : V → Program S A E W}
    (first : frame.Covers program) (second : ∀ value, frame.Covers (rest value)) :
    frame.Covers (program.bind rest) := by
  intro state stable
  exact (first state stable).bind closed stable second

/-- A program that loads the state goes on from the state that it has loaded. -/
theorem covers_load {rest : S → Program S A E V} (covers : ∀ state, frame.Covers (rest state)) :
    frame.Covers (Program.load.bind rest) := fun state stable => covers state state stable

theorem Covers.attempt (closed : frame.Closed) {program : Program S A E V}
    {handler : E → Program S A E V} (first : frame.Covers program)
    (second : ∀ error, frame.Covers (handler error)) : frame.Covers (program.attempt handler) := by
  intro state stable
  exact (first state stable).attempt closed stable second

theorem Covers.joined {program : Program S A E V} {turn : C} (first : frame.Covers program)
    (next : ∀ state, frame.allowed state turn) : frame.Covers (program.joined turn) := by
  intro state stable
  exact (first state stable).joined next

end Covers

/-- An assertion of one thread is sound for a frame when neither the steps of the frame nor the other
threads break it. -/
structure Sound (frame : Frame S C) (contract : Contract S A L) (me : Nat)
    (assertion : S → Trace A L → Prop) : Prop where
  stable : ∀ {state trace}, assertion state trace → frame.stable state
  kept : ∀ {state trace}, assertion state trace → contract.invariant state trace
  called : ∀ {state trace request} answer, assertion state trace → frame.allowed state request →
    contract.monitor trace me (.called request answer) ∧
      assertion state ((me, .called request answer) :: trace)
  issued : ∀ {state trace request}, assertion state trace → frame.allowed state request →
    contract.monitor trace me (.issued request) ∧ assertion state ((me, .issued request) :: trace)
  answered : ∀ {state trace} request answer, assertion state trace →
    contract.monitor trace me (.answered request answer) ∧
      assertion state ((me, .answered request answer) :: trace)
  resumed : ∀ {state trace state' trace'}, assertion state trace → contract.rely state state' →
    Extends me trace trace' → contract.invariant state' trace' → assertion state' trace'
  stored : ∀ {state trace stored}, assertion state trace → frame.keeps state stored →
    contract.rely state stored ∧ assertion stored trace

/-- A fact about the own events of a thread joins its assertion. -/
theorem Sound.and_own {frame : Frame S C} {contract : Contract S A L} {me : Nat}
    {assertion : S → Trace A L → Prop} (sound : frame.Sound contract me assertion)
    {fact : Trace A L → Prop}
    (called : ∀ state request answer trace, frame.allowed state request → fact trace →
      fact ((me, .called request answer) :: trace))
    (issued : ∀ state request trace, frame.allowed state request → fact trace →
      fact ((me, .issued request) :: trace))
    (answered : ∀ request answer trace, fact trace → fact ((me, .answered request answer) :: trace))
    (extended : ∀ trace trace', fact trace → Extends me trace trace' → fact trace') :
    frame.Sound contract me fun state trace => assertion state trace ∧ fact trace where
  stable holds := sound.stable holds.1
  kept holds := sound.kept holds.1
  called answer holds allowed :=
    have after := sound.called answer holds.1 allowed
    ⟨after.1, after.2, called _ _ _ _ allowed holds.2⟩
  issued holds allowed :=
    have after := sound.issued holds.1 allowed
    ⟨after.1, after.2, issued _ _ _ allowed holds.2⟩
  answered request answer holds :=
    have after := sound.answered request answer holds.1
    ⟨after.1, after.2, answered _ _ _ holds.2⟩
  resumed holds relied extension kept :=
    ⟨sound.resumed holds.1 relied extension kept, extended _ _ holds.2 extension⟩
  stored holds keeps :=
    have after := sound.stored holds.1 keeps
    ⟨after.1, after.2, holds.2⟩

/-- A fact that outlasts every longer trace joins the assertion. -/
theorem Sound.and_mono {frame : Frame S C} {contract : Contract S A L} {me : Nat}
    {assertion : S → Trace A L → Prop} (sound : frame.Sound contract me assertion)
    {fact : Trace A L → Prop} (mono : ∀ before after, before ⊆ after → fact before → fact after) :
    frame.Sound contract me fun state trace => assertion state trace ∧ fact trace := by
  apply sound.and_own
  · exact fun _ _ _ _ _ => mono _ _ (List.subset_cons_self _ _)
  · exact fun _ _ _ _ => mono _ _ (List.subset_cons_self _ _)
  · exact fun _ _ _ => mono _ _ (List.subset_cons_self _ _)
  · exact fun _ _ holds extension => mono _ _ extension.suffix.subset holds

/-- A framed program keeps every assertion that is sound for its frame. -/
theorem wp_of_holds {frame : Frame S C} {contract : Contract S A L} {me : Nat}
    {assertion : S → Trace A L → Prop} (sound : frame.Sound contract me assertion)
    {program : Program S A E V} {state : S} {trace : Trace A L} (framed : frame.Holds program state)
    (holds : assertion state trace) :
    wp contract me program (fun _ => assertion) state trace := by
  induction program generalizing state trace with
  | done value => exact holds
  | failed error => exact holds
  | read next ih => exact ih state framed holds
  | store stored next ih =>
      have after := sound.stored holds framed.1
      exact ⟨after.1, ih framed.2 after.2⟩
  | call request next ih =>
      intro answer _
      have after := sound.called answer holds framed.1
      exact ⟨after.1, ih answer (framed.2 answer) after.2⟩
  | await request next ih =>
      have issued := sound.issued holds framed.1
      refine ⟨issued.1, sound.kept issued.2, ?_⟩
      intro state' trace' relied extension kept answer _
      have resumed := sound.resumed issued.2 relied extension kept
      have answered := sound.answered request answer resumed
      exact ⟨answered.1, ih answer (framed.2 state' answer (sound.stable resumed)) answered.2⟩

/-- A turn at the end of a program keeps every sound assertion about its result. -/
theorem wp_joined_of_sound {frame : Frame S C} {contract : Contract S A L} {me : Nat}
    {assertion : Except E V → S → Trace A L → Prop}
    (sound : ∀ result, frame.Sound contract me (assertion result)) {turn : C}
    (allowed : ∀ state, frame.allowed state turn) {program : Program S A E V} {state : S}
    {trace : Trace A L} (holds : wp contract me program assertion state trace) :
    wp contract me (program.joined turn) assertion state trace := by
  rw [wp_joined]
  apply wp_mono _ holds
  intro result state trace asserted
  have issued := (sound result).issued asserted (allowed state)
  refine ⟨issued.1, (sound result).kept issued.2, ?_⟩
  intro state' trace' relied extension kept answer _
  have resumed := (sound result).resumed issued.2 relied extension kept
  have answered := (sound result).answered turn answer resumed
  refine ⟨answered.1, ?_⟩
  rw [wp_ofExcept]
  exact answered.2

/-- An assertion of one thread is sound between its awaits when the steps of the frame keep it, each
request leaves the shared invariant, and each answer brings the assertion back. -/
structure Between (frame : Frame S C) (contract : Contract S A L) (me : Nat)
    (assertion : S → Trace A L → Prop) : Prop where
  stable : ∀ {state trace}, assertion state trace → frame.stable state
  called : ∀ {state trace request} answer, assertion state trace → frame.allowed state request →
    contract.monitor trace me (.called request answer) ∧
      assertion state ((me, .called request answer) :: trace)
  awaited : ∀ {state trace request}, assertion state trace → frame.allowed state request →
    contract.monitor trace me (.issued request) ∧
      contract.invariant state ((me, .issued request) :: trace) ∧
      ∀ {state' trace'} answer, contract.rely state state' →
        Extends me ((me, .issued request) :: trace) trace' → contract.invariant state' trace' →
          contract.monitor trace' me (.answered request answer) ∧
            assertion state' ((me, .answered request answer) :: trace')
  stored : ∀ {state trace stored}, assertion state trace → frame.keeps state stored →
    contract.rely state stored ∧ assertion stored trace

/-- A fact that outlasts every longer trace joins an assertion between awaits. -/
theorem Between.and_mono {frame : Frame S C} {contract : Contract S A L} {me : Nat}
    {assertion : S → Trace A L → Prop} (between : frame.Between contract me assertion)
    {fact : Trace A L → Prop} (mono : ∀ before after, before ⊆ after → fact before → fact after) :
    frame.Between contract me fun state trace => assertion state trace ∧ fact trace where
  stable holds := between.stable holds.1
  called answer holds allowed :=
    have after := between.called answer holds.1 allowed
    ⟨after.1, after.2, mono _ _ (List.subset_cons_self _ _) holds.2⟩
  awaited := by
    intro state trace request holds allowed
    have waiting := between.awaited holds.1 allowed
    refine ⟨waiting.1, waiting.2.1, ?_⟩
    intro state' trace' answer relied extension kept
    have resumed := waiting.2.2 answer relied extension kept
    refine ⟨resumed.1, resumed.2, mono trace _ ?_ holds.2⟩
    exact fun pair member => List.mem_cons_of_mem _ (extension.mem (List.mem_cons_of_mem _ member))
  stored holds keeps :=
    have after := between.stored holds.1 keeps
    ⟨after.1, after.2, holds.2⟩

/-- One of several assertions holds between awaits when each of them does. -/
theorem Between.exists {ι : Type} {frame : Frame S C} {contract : Contract S A L} {me : Nat}
    {assertion : ι → S → Trace A L → Prop} (between : ∀ index, frame.Between contract me (assertion index)) :
    frame.Between contract me fun state trace => ∃ index, assertion index state trace where
  stable := by
    rintro state trace ⟨index, holds⟩
    exact (between index).stable holds
  called := by
    rintro state trace request answer ⟨index, holds⟩ allowed
    have after := (between index).called answer holds allowed
    exact ⟨after.1, index, after.2⟩
  awaited := by
    rintro state trace request ⟨index, holds⟩ allowed
    have waiting := (between index).awaited holds allowed
    refine ⟨waiting.1, waiting.2.1, ?_⟩
    intro state' trace' answer relied extension kept
    have resumed := waiting.2.2 answer relied extension kept
    exact ⟨resumed.1, index, resumed.2⟩
  stored := by
    rintro state trace stored ⟨index, holds⟩ keeps
    have after := (between index).stored holds keeps
    exact ⟨after.1, index, after.2⟩

/-- A framed program keeps every assertion that is sound between its awaits. -/
theorem wp_of_holds_between {frame : Frame S C} {contract : Contract S A L} {me : Nat}
    {assertion : S → Trace A L → Prop} (between : frame.Between contract me assertion)
    {program : Program S A E V} {state : S} {trace : Trace A L} (framed : frame.Holds program state)
    (holds : assertion state trace) :
    wp contract me program (fun _ => assertion) state trace := by
  induction program generalizing state trace with
  | done value => exact holds
  | failed error => exact holds
  | read next ih => exact ih state framed holds
  | store stored next ih =>
      have after := between.stored holds framed.1
      exact ⟨after.1, ih framed.2 after.2⟩
  | call request next ih =>
      intro answer _
      have after := between.called answer holds framed.1
      exact ⟨after.1, ih answer (framed.2 answer) after.2⟩
  | await request next ih =>
      have waiting := between.awaited holds framed.1
      refine ⟨waiting.1, waiting.2.1, ?_⟩
      intro state' trace' relied extension kept answer _
      have resumed := waiting.2.2 answer relied extension kept
      exact ⟨resumed.1, ih answer (framed.2 state' answer (between.stable resumed.2)) resumed.2⟩

/-- A turn at the end of a program keeps every assertion about its result that is sound between
awaits. -/
theorem wp_joined_of_between {frame : Frame S C} {contract : Contract S A L} {me : Nat}
    {assertion : Except E V → S → Trace A L → Prop}
    (between : ∀ result, frame.Between contract me (assertion result)) {turn : C}
    (allowed : ∀ state, frame.allowed state turn) {program : Program S A E V} {state : S}
    {trace : Trace A L} (holds : wp contract me program assertion state trace) :
    wp contract me (program.joined turn) assertion state trace := by
  rw [wp_joined]
  apply wp_mono _ holds
  intro result state trace asserted
  have waiting := (between result).awaited asserted (allowed state)
  refine ⟨waiting.1, waiting.2.1, ?_⟩
  intro state' trace' relied extension kept answer _
  have resumed := waiting.2.2 answer relied extension kept
  refine ⟨resumed.1, ?_⟩
  rw [wp_ofExcept]
  exact resumed.2

end Frame

/-- A monitor that allows an event of one kind only before all others of its kind bounds their
number. -/
theorem countP_le_one_of_accepted {kind : Event A L → Bool} {trace : Trace A L}
    (accepted : Accepted (fun trace _ event => kind event = true →
      ∀ pair ∈ trace, kind pair.2 = false) trace) :
    (trace.countP fun pair => kind pair.2) ≤ 1 := by
  induction trace with
  | nil => exact Nat.zero_le 1
  | cons pair trace ih =>
      obtain ⟨me, event⟩ := pair
      obtain ⟨newest, older⟩ := accepted_cons.mp accepted
      cases isKind : kind event with
      | false =>
          rw [List.countP_cons_of_neg (by simp [isKind])]
          exact ih older
      | true =>
          have none : (trace.countP fun pair => kind pair.2) = 0 := by
            rw [List.countP_eq_zero]
            intro pair member
            simp [newest isKind pair member]
          rw [List.countP_cons_of_pos (by simpa using isKind), none]

end Async
