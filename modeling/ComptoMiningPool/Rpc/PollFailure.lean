import ComptoMiningPool.Rpc.Intervals

/-
This file proves when the polling survives the failures of its calls.
-/

namespace ComptoMiningPool

open JavaScript Async

abbrev RpcSystem := System RpcState RpcAnswer Thrown Unit RpcTask

/-- The call of the callback has failed. -/
def CallFailed (me : ℕ) (trace : Trace RpcAnswer RpcTask) : Prop :=
  ∃ thrown, (me, .answered .syncValidBlockhashes (.error thrown)) ∈ trace

/-- A rejection escapes when the callback of an interval ends with an error. -/
def Escaped (system : RpcSystem) : Prop :=
  ∃ me interval thrown, (me, .started (.tick interval)) ∈ system.trace ∧
    system.threads[me]? = some (.ended (.error thrown))

/-- An escaped rejection terminates the process. -/
def RpcService.ProcessStep (service : RpcService) (before after : RpcSystem) : Prop :=
  ¬ Escaped before ∧ Step (service.semantics anyAnswer) before after

def RpcService.ProcessReachable (service : RpcService) (system : RpcSystem) : Prop :=
  Relation.ReflTransGen service.ProcessStep ⟨{}, [], []⟩ system

/-- A failed call changes nothing, no rejection escapes, each armed interval can poll again, and it stays
armed until one of its callbacks has adopted a hash. -/
structure KeepsPolling (service : RpcService) (system : RpcSystem) : Prop where
  unchanged : ∀ after me, service.ProcessStep system after → CallFailed me after.trace →
    own me after.trace ≠ own me system.trace → after.state = system.state
  absorbed : ¬ Escaped system
  polls : ∀ interval ∈ system.state.running, ∃ after, service.ProcessStep system after ∧
    (system.threads.length, .started (.tick interval)) ∈ after.trace ∧
      (system.threads.length, .issued .syncValidBlockhashes) ∈ after.trace
  armed : ∀ interval < system.state.intervals, interval ∈ system.state.running ∨
    ∃ me, (me, .started (.tick interval)) ∈ system.trace ∧ Adopted me system.trace

/-- Every process run is an interleaving of the service. -/
theorem RpcService.ProcessReachable.reachable {service : RpcService} {system : RpcSystem}
    (reached : service.ProcessReachable system) : Reachable (service.semantics anyAnswer) {} system := by
  induction reached with
  | refl => exact .refl
  | tail _ step ih => exact ih.tail step.2

/-- These calls ask for no hash. -/
def RpcCall.Unasked (call : RpcCall) : Prop := call ≠ .syncValidBlockhashes

section Callback

theorem RpcCall.Hashless.unasked {call : RpcCall} (hashless : call.Hashless) : call.Unasked := by
  rintro rfl
  exact hashless

/-- A callback asks for the hash once. A failed call ends it with the same error, and after a hash it
neither fails nor asks again. -/
theorem pollTick_eq (interval : ℕ) : ∃ next, pollTick interval = .await .syncValidBlockhashes next ∧
    (∀ thrown, next (.error thrown) = .await .turn fun _ => .failed thrown) ∧
      ∀ hash, Unfailing (next (.ok hash)) ∧ Makes RpcCall.Unasked (next (.ok hash)) := by
  refine ⟨_, rfl, fun _ => rfl, ?_⟩
  intro hash
  have turn : RpcCall.Unasked .turn := fun equal => by cases equal
  have emits : RpcCall.Unasked (.nextBlock hash) := fun equal => by cases equal
  constructor
  · apply Unfailing.bind
    · apply Unfailing.joined
      intro state
      simp only [Program.bind_eq, Program.bind]
      split
      · intro _ _
        exact unfailing_updateUserData.joined.bind fun _ => trivial
      · trivial
    · intro finished
      cases finished with
      | false => trivial
      | true => exact fun _ => trivial
  · apply Makes.bind
    · apply Makes.joined _ turn
      intro state
      simp only [Program.bind_eq, Program.bind]
      split
      · refine ⟨emits, fun _ state => ?_⟩
        have quiet : Makes RpcCall.Unasked (updateUserData.joined RpcCall.turn) :=
          (confined_turn confined_updateUserData).makes fun _ => RpcCall.Hashless.unasked
        exact quiet.bind fun _ => trivial
      · trivial
    · intro finished
      cases finished with
      | false => trivial
      | true => exact fun _ => trivial

/-- A submission asks for no hash. -/
theorem makes_submitProof (service : RpcService) (submission : Submission) :
    Makes RpcCall.Unasked ((service.submitProof submission).bind fun _ => .done ()) := by
  have quiet : Makes RpcCall.Unasked (service.submitProof submission) :=
    (confined_submitProof service submission).makes fun _ => RpcCall.Hashless.unasked
  exact quiet.bind fun _ => trivial

end Callback

section Failures

variable {service : RpcService} {system : RpcSystem} {me : ℕ}

/-- The thread of a failed call is a callback that waits for its turn or has ended with the error. -/
theorem thread_of_callFailed (reached : Reachable (service.semantics anyAnswer) {} system)
    (failed : CallFailed me system.trace) {thread : Thread RpcState RpcAnswer Thrown Unit}
    (found : system.threads[me]? = some thread) :
    ∃ interval thrown, (me, .started (.tick interval)) ∈ system.trace ∧
      (thread = .waiting .turn (fun _ => .failed thrown) ∨ thread = .ended (.error thrown)) := by
  obtain ⟨task, events, owned, follows⟩ := reached.follows found
  obtain ⟨thrown, member⟩ := failed
  have inside : Event.answered RpcCall.syncValidBlockhashes (.error thrown) ∈ events := by
    have owns := mem_own.mpr member
    rw [owned] at owns
    rcases List.mem_append.mp owns with owns | owns
    · exact List.mem_reverse.mp owns
    · rw [List.mem_singleton] at owns
      cases owns
  have started : (me, Event.started task) ∈ system.trace := by
    rw [← mem_own, owned]
    exact List.mem_append_right _ List.mem_cons_self
  cases task with
  | pollMiningInfo =>
      have quiet : Makes RpcCall.Unasked pollMiningInfo := fun _ => trivial
      exact absurd rfl (follows.allowed_of_answered quiet inside)
  | submitProof submission =>
      exact absurd rfl (follows.allowed_of_answered (makes_submitProof service submission) inside)
  | tick interval =>
      obtain ⟨next, whole, fails, succeeds⟩ := pollTick_eq interval
      change Follows (pollTick interval) events thread at follows
      rw [whole] at follows
      cases follows with
      | waiting =>
          rw [List.mem_singleton] at inside
          cases inside
      | await answer rest =>
          cases answer with
          | ok hash =>
              rcases List.mem_cons.mp inside with equal | inside
              · cases equal
              · rcases List.mem_cons.mp inside with equal | inside
                · cases equal
                · exact absurd rfl (rest.allowed_of_answered (succeeds hash).2 inside)
          | error thrown' =>
              refine ⟨interval, thrown', started, ?_⟩
              rw [fails thrown'] at rest
              cases rest with
              | waiting => exact Or.inl rfl
              | await answer rest =>
                  cases rest
                  exact Or.inr rfl

/-- A callback that ends with an error had a failed call. -/
theorem callFailed_of_escaped (reached : Reachable (service.semantics anyAnswer) {} system)
    {interval : ℕ} {thrown : Thrown} (started : (me, .started (.tick interval)) ∈ system.trace)
    (ended : system.threads[me]? = some (.ended (.error thrown))) : CallFailed me system.trace := by
  obtain ⟨task, events, owned, follows⟩ := reached.follows ended
  have isTick : task = .tick interval := by
    have owns := mem_own.mpr started
    rw [owned] at owns
    rcases List.mem_append.mp owns with owns | owns
    · exact absurd (List.mem_reverse.mp owns) (follows.started_not_mem _)
    · rw [List.mem_singleton] at owns
      cases owns
      rfl
  subst isTick
  obtain ⟨next, whole, fails, succeeds⟩ := pollTick_eq interval
  change Follows (pollTick interval) events (.ended (.error thrown)) at follows
  rw [whole] at follows
  cases follows with
  | await answer rest =>
      cases answer with
      | ok hash =>
          obtain ⟨value, equal⟩ := rest.ended_ok (succeeds hash).1
          cases equal
      | error thrown' =>
          refine ⟨thrown', ?_⟩
          rw [← mem_own, owned]
          simp

/-- The failure of a call gives up the turn and then ends the callback. -/
theorem failed_answer_eq (reached : Reachable (service.semantics anyAnswer) {} system)
    {next : RpcAnswer .syncValidBlockhashes → RpcProgram Unit}
    (waiting : system.threads[me]? = some (.waiting .syncValidBlockhashes next)) (thrown : Thrown) :
    next (.error thrown) = .await .turn fun _ => .failed thrown := by
  obtain ⟨task, events, _, follows⟩ := reached.follows waiting
  cases task with
  | pollMiningInfo =>
      have quiet : Makes RpcCall.Unasked pollMiningInfo := fun _ => trivial
      exact absurd rfl (follows.allowed_of_waiting quiet)
  | submitProof submission =>
      exact absurd rfl (follows.allowed_of_waiting (makes_submitProof service submission))
  | tick interval =>
      obtain ⟨next', whole, fails, succeeds⟩ := pollTick_eq interval
      change Follows (pollTick interval) events _ at follows
      rw [whole] at follows
      cases follows with
      | waiting => exact fails thrown
      | await answer rest =>
          cases answer with
          | ok hash => exact absurd rfl (rest.allowed_of_waiting (succeeds hash).2)
          | error thrown' =>
              rw [fails thrown'] at rest
              cases rest with
              | await answer rest => cases rest

/-- Neither the answer of a failed call nor the end of its callback changes the state. -/
theorem state_eq_of_callFailed {after : RpcSystem}
    (reached : Reachable (service.semantics anyAnswer) {} system)
    (step : Step (service.semantics anyAnswer) system after) (failed : CallFailed me after.trace)
    (moved : own me after.trace ≠ own me system.trace) : after.state = system.state := by
  obtain ⟨thrown, member⟩ := failed
  cases step with
  | disturb state' disturbed => exact disturbed.elim
  | start task enabled segment =>
      rcases List.mem_cons.mp (segment.mem_of_answered member) with equal | older
      · cases equal
      · obtain ⟨added, grown, mine⟩ := segment.added
        have other : system.threads.length ≠ me := Nat.ne_of_gt (Reachable.index_lt reached _ older)
        subst grown
        exact absurd (own_of_other other mine _) moved
  | resume index waiting answer admitted segment =>
      obtain ⟨added, grown, mine⟩ := segment.added
      have same : index = me := by
        by_contra different
        subst grown
        exact moved (own_of_other different mine _)
      subst same
      rcases List.mem_cons.mp (segment.mem_of_answered member) with equal | older
      · cases equal
        rw [failed_answer_eq reached waiting thrown] at segment
        cases segment
        rfl
      · obtain ⟨interval, thrown', _, turn | ended⟩ := thread_of_callFailed reached ⟨thrown, older⟩ waiting
        · cases turn
          cases segment
          rfl
        · cases ended

end Failures

/-- Each interval is armed until one of its callbacks has adopted a hash. -/
def ArmedUntilAdoption (state : RpcState) (trace : Trace RpcAnswer RpcTask) : Prop :=
  ∀ interval < state.intervals, interval ∈ state.running ∨
    ∃ me, (me, .started (.tick interval)) ∈ trace ∧ Adopted me trace

def armedContract : Contract RpcState RpcAnswer RpcTask where
  admits := anyAnswer
  monitor _ _ _ := True
  rely _ _ := True
  invariant := ArmedUntilAdoption

section Armed

variable {me : ℕ} {state : RpcState} {trace : Trace RpcAnswer RpcTask}

theorem Adopted.mono {before after : Trace RpcAnswer RpcTask} (grows : before ⊆ after)
    (adopted : Adopted me before) : Adopted me after := by
  obtain ⟨hash, member⟩ := adopted
  exact ⟨hash, grows member⟩

theorem ArmedUntilAdoption.mono {after : RpcState} {trace' : Trace RpcAnswer RpcTask}
    (kept : ArmedUntilAdoption state trace) (intervals : after.intervals = state.intervals)
    (running : after.running = state.running) (grows : trace ⊆ trace') : ArmedUntilAdoption after trace' := by
  intro interval below
  rw [intervals] at below
  rw [running]
  rcases kept interval below with armed | ⟨other, started, adopted⟩
  · exact Or.inl armed
  · exact Or.inr ⟨other, grows started, adopted.mono grows⟩

/-- A program that stores nothing keeps every interval armed, and it keeps what its thread knows of its
own past. -/
theorem wp_armed_of_confined {V : Type} {allowed : RpcCall → Prop} {program : RpcProgram V}
    {fact : Trace RpcAnswer RpcTask → Prop} (confined : Confined allowed program)
    (grown : ∀ before after, before ⊆ after → fact before → fact after)
    (kept : ArmedUntilAdoption state trace) (known : fact trace) :
    wp armedContract me program (fun _ state trace => ArmedUntilAdoption state trace ∧ fact trace)
      state trace := by
  have both : ArmedUntilAdoption state trace ∧ fact trace := ⟨kept, known⟩
  refine @wp_of_confined_between _ _ _ _ _ _ armedContract _ _
    (fun state trace => ArmedUntilAdoption state trace ∧ fact trace) _ _ _ confined both ?_ ?_
  · intro state trace request answer holds _
    have grows := List.subset_cons_self (me, .called request answer) trace
    exact ⟨trivial, holds.1.mono rfl rfl grows, grown _ _ grows holds.2⟩
  · intro state trace request holds _
    refine ⟨trivial, holds.1.mono rfl rfl (List.subset_cons_self _ _), ?_⟩
    intro state' trace' answer _ extension kept
    have grows : trace ⊆ (me, .answered request answer) :: trace' := fun pair member =>
      List.mem_cons_of_mem _ (extension.mem (List.mem_cons_of_mem _ member))
    exact ⟨trivial, kept.mono rfl rfl (List.subset_cons_self _ _), grown _ _ grows holds.2⟩

/-- The callback knows its own start, and after a new hash its own adoption. -/
def AdoptedBy (interval me : ℕ) (trace : Trace RpcAnswer RpcTask) : Prop :=
  (me, .started (.tick interval)) ∈ trace ∧ Adopted me trace

theorem AdoptedBy.mono {interval : ℕ} (before after : Trace RpcAnswer RpcTask) (grows : before ⊆ after)
    (adopted : AdoptedBy interval me before) : AdoptedBy interval me after :=
  ⟨grows adopted.1, adopted.2.mono grows⟩

/-- The callback of an interval finishes only after it has adopted a hash. -/
theorem wp_pollMiningInfoOnce_of_armed {interval : ℕ} (kept : ArmedUntilAdoption state trace)
    (started : (me, .started (.tick interval)) ∈ trace) :
    wp armedContract me pollMiningInfoOnce (fun result state trace => ArmedUntilAdoption state trace ∧
      (result = .ok true → AdoptedBy interval me trace)) state trace := by
  unfold pollMiningInfoOnce getMiningInfo
  refine ⟨trivial, kept.mono rfl rfl (List.subset_cons_self _ _), ?_⟩
  intro state₁ trace₁ _ extension kept₁ answer _
  refine ⟨trivial, ?_⟩
  have resumed : ArmedUntilAdoption state₁ ((me, .answered .syncValidBlockhashes answer) :: trace₁) :=
    kept₁.mono rfl rfl (List.subset_cons_self _ _)
  cases answer with
  | error thrown => exact ⟨resumed, fun finished => by cases finished⟩
  | ok miningInfo =>
      show wp armedContract me (if state₁.blockHash ≠ some miningInfo then _ else _) _ _ _
      split
      · intro _ _
        refine ⟨trivial, trivial, ?_⟩
        show wp armedContract me ((updateUserData.joined .turn).bind fun _ => .done true) _ _ _
        rw [wp_bind]
        have adopted : AdoptedBy interval me ((me, .called (.nextBlock miningInfo) ()) ::
            (me, .answered .syncValidBlockhashes (.ok miningInfo)) :: trace₁) :=
          ⟨List.mem_cons_of_mem _ (List.mem_cons_of_mem _ (extension.mem (List.mem_cons_of_mem _ started))),
            miningInfo, List.mem_cons_self⟩
        have emitted : ArmedUntilAdoption
            { state₁ with newBlock := miningInfo, blockHash := some miningInfo }
            ((me, .called (.nextBlock miningInfo) ()) ::
              (me, .answered .syncValidBlockhashes (.ok miningInfo)) :: trace₁) :=
          resumed.mono rfl rfl (List.subset_cons_self _ _)
        apply wp_mono _ (wp_armed_of_confined (confined_turn confined_updateUserData) AdoptedBy.mono emitted
          adopted)
        intro result state₂ trace₂ holds
        cases result with
        | error thrown => exact ⟨holds.1, fun finished => by cases finished⟩
        | ok logged => exact ⟨holds.1, fun _ => holds.2⟩
      · exact ⟨resumed, fun finished => by cases finished⟩

theorem wp_pollTick_of_armed {interval : ℕ} (kept : ArmedUntilAdoption state trace)
    (started : (me, .started (.tick interval)) ∈ trace) :
    wp armedContract me (pollTick interval) (fun _ => ArmedUntilAdoption) state trace := by
  unfold pollTick
  simp only [Program.bind_eq]
  rw [wp_bind, wp_joined]
  apply wp_mono _ (wp_pollMiningInfoOnce_of_armed kept started)
  intro result state₁ trace₁ holds
  refine ⟨trivial, holds.1.mono rfl rfl (List.subset_cons_self _ _), ?_⟩
  intro state₂ trace₂ _ extension kept₂ answer _
  refine ⟨trivial, ?_⟩
  rw [wp_ofExcept]
  have resumed : ArmedUntilAdoption state₂ ((me, .answered .turn answer) :: trace₂) :=
    kept₂.mono rfl rfl (List.subset_cons_self _ _)
  cases result with
  | error thrown => exact resumed
  | ok finished =>
      cases finished with
      | false => exact resumed
      | true =>
          refine ⟨trivial, ?_⟩
          intro other below
          by_cases same : other = interval
          · subst same
            have adopted : AdoptedBy other me ((me, .answered .turn answer) :: trace₂) :=
              (holds.2 rfl).mono _ _ fun pair member =>
                List.mem_cons_of_mem _ (extension.mem (List.mem_cons_of_mem _ member))
            exact Or.inr ⟨me, adopted⟩
          · rcases resumed other below with armed | adopted
            · exact Or.inl ((List.mem_erase_of_ne same).mpr armed)
            · exact Or.inr adopted

end Armed

theorem armedContract_proved (service : RpcService) :
    armedContract.Proved (service.semantics anyAnswer) {} where
  sameAnswers := rfl
  relyRefl _ := trivial
  relyTrans _ _ _ _ _ := trivial
  initially := fun _ below => absurd below (Nat.not_lt_zero _)
  starts := by
    intro state trace me task kept _ _
    refine ⟨trivial, ?_⟩
    have begun : ArmedUntilAdoption state ((me, .started task) :: trace) :=
      kept.mono rfl rfl (List.subset_cons_self _ _)
    cases task with
    | pollMiningInfo =>
        refine ⟨trivial, ?_⟩
        intro interval below
        rcases Nat.lt_succ_iff_lt_or_eq.mp below with older | rfl
        · rcases begun interval older with armed | adopted
          · exact Or.inl (List.mem_cons_of_mem _ armed)
          · exact Or.inr adopted
        · exact Or.inl List.mem_cons_self
    | tick interval => exact wp_pollTick_of_armed begun List.mem_cons_self
    | submitProof submission =>
        have confined : Confined RpcCall.Hashless
            ((service.submitProof submission).bind fun _ => .done ()) :=
          (confined_submitProof service submission).bind fun _ => trivial
        have known : ∀ before after : Trace RpcAnswer RpcTask, before ⊆ after → True → True :=
          fun _ _ _ _ => trivial
        apply wp_mono _ (wp_armed_of_confined confined known begun trivial)
        exact fun _ _ _ holds => holds.1
  disturbed _ _ _ _ impossible := impossible.elim

/-- The polling survives in a run exactly when no callback has ended after a failed call. -/
theorem keepsPolling_iff (service : RpcService) {system : RpcSystem}
    (reached : service.ProcessReachable system) :
    KeepsPolling service system ↔ ∀ me result, CallFailed me system.trace →
      system.threads[me]? ≠ some (.ended result) := by
  have reachable := reached.reachable
  constructor
  · intro survives me result failed ended
    obtain ⟨interval, thrown, started, waiting | equal⟩ := thread_of_callFailed reachable failed ended
    · cases waiting
    · rw [equal] at ended
      exact survives.absorbed ⟨me, interval, thrown, started, ended⟩
  · intro unended
    have alive : ¬ Escaped system := by
      rintro ⟨me, interval, thrown, started, ended⟩
      exact unended me _ (callFailed_of_escaped reachable started ended) ended
    refine ⟨?_, alive, ?_, ((armedContract_proved service).reachable reachable).1⟩
    · intro after me step failed moved
      exact state_eq_of_callFailed reachable step.2 failed moved
    · intro interval armed
      refine ⟨_, ⟨alive, .start (.tick interval) armed .await⟩, ?_, List.mem_cons_self⟩
      exact List.mem_cons_of_mem _ List.mem_cons_self

/-- No rejection has escaped while every thread waits or has ended with a value. -/
theorem not_escaped {state : RpcState} {trace : Trace RpcAnswer RpcTask}
    {threads : List (Thread RpcState RpcAnswer Thrown Unit)}
    (calm : ∀ thread ∈ threads, ∀ thrown, thread ≠ .ended (.error thrown)) :
    ¬ Escaped ⟨state, trace, threads⟩ := by
  rintro ⟨me, interval, thrown, _, ended⟩
  exact calm _ (List.mem_of_getElem? ended) thrown rfl

/-- The first tick of the startup poll has asked for a hash. -/
theorem processReachable_asked (service : RpcService) : ∃ next, service.ProcessReachable
    ⟨{ intervals := 1, running := [0] },
      [(1, .issued .syncValidBlockhashes), (1, .started (.tick 0)), (0, .started .pollMiningInfo)],
      [.ended (.ok ()), .waiting .syncValidBlockhashes next]⟩ ∧
    pollTick 0 = .await .syncValidBlockhashes next := by
  have running : (0 : ℕ) ∈ ([0] : List ℕ) := List.mem_singleton.mpr rfl
  refine ⟨_, ?_, rfl⟩
  apply Relation.ReflTransGen.tail
  · apply Relation.ReflTransGen.single
    exact ⟨not_escaped (by simp), .start .pollMiningInfo trivial (.read (.store .done))⟩
  · exact ⟨not_escaped (by simp), .start (.tick 0) running .await⟩

/-- The polling survives the adoption of a hash. -/
theorem keepsPolling_after_adoption :
    ∃ system : RpcSystem, RpcService.ProcessReachable ⟨List.replicate 32 7, "devnet"⟩ system ∧
      Adopted 1 system.trace ∧ KeepsPolling ⟨List.replicate 32 7, "devnet"⟩ system := by
  let service : RpcService := ⟨List.replicate 32 7, "devnet"⟩
  let hash : Bytes := List.replicate 32 2
  obtain ⟨next, reached, polls⟩ := processReachable_asked service
  cases polls
  have adopted := reached.tail ⟨not_escaped (by simp),
    .resume 1 rfl (.ok hash) trivial (.read (.call () trivial (.read (.store .await))))⟩
  refine ⟨_, adopted, ⟨hash, by simp⟩, (keepsPolling_iff service adopted).mpr ?_⟩
  rintro me result ⟨thrown, member⟩
  simp at member

/-- A failed call ends the process. -/
theorem keepsPolling_fails_for_failed_call :
    ∃ system : RpcSystem, RpcService.ProcessReachable ⟨List.replicate 32 7, "devnet"⟩ system ∧
      ¬ KeepsPolling ⟨List.replicate 32 7, "devnet"⟩ system := by
  let service : RpcService := ⟨List.replicate 32 7, "devnet"⟩
  let thrown : Thrown := .error "fetch failed"
  obtain ⟨next, reached, polls⟩ := processReachable_asked service
  cases polls
  have failed := reached.tail ⟨not_escaped (by simp), .resume 1 rfl (.error thrown) trivial .await⟩
  have ended := failed.tail ⟨not_escaped (by simp), .resume 1 rfl () trivial .failed⟩
  refine ⟨_, ended, ?_⟩
  intro survives
  apply survives.absorbed
  exact ⟨1, 0, thrown, by simp, rfl⟩

end ComptoMiningPool
