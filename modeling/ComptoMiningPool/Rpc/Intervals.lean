import ComptoMiningPool.Async.Threads
import ComptoMiningPool.Rpc.Polling

/-
This file proves when the polls keep one interval armed and clear it with the block hash that they adopt.
-/

namespace ComptoMiningPool

open JavaScript Async

/-- The callback has emitted a new hash on the block stream. -/
def Adopted (me : ℕ) (trace : Trace RpcAnswer RpcTask) : Prop :=
  ∃ hash, (me, .called (.nextBlock hash) ()) ∈ trace

/-- A poll has started after the last event of the thread. -/
def PolledSince (me : ℕ) (trace : Trace RpcAnswer RpcTask) : Prop :=
  ∃ later earlier poll, trace = later ++ (poll, .started .pollMiningInfo) :: earlier ∧
    ∀ event, (me, event) ∉ later

/-- At most one interval is armed, and none is from the end of a callback that adopted a hash to the
next poll. -/
structure SinglyArmed (system : System RpcState RpcAnswer Thrown Unit RpcTask) : Prop where
  single : system.state.running.length ≤ 1
  cleared : ∀ me result, system.threads[me]? = some (.ended result) → Adopted me system.trace →
    ¬ PolledSince me system.trace → system.state.running = []

/-- A careful poll starts when no interval is armed and each callback that adopted a hash has ended. -/
def RpcTask.mayStartAlone (state : RpcState) (trace : Trace RpcAnswer RpcTask) : RpcTask → Prop
  | .pollMiningInfo => state.running = [] ∧ ∀ me, Adopted me trace → ¬ Awaits me trace
  | .tick interval => interval ∈ state.running
  | .submitProof _ => True

/-- A new hash answers the callbacks of the newest interval only. -/
def newestAdopts (me : ℕ) (state : RpcState) (trace : Trace RpcAnswer RpcTask) :
    (call : RpcCall) → RpcAnswer call → Prop
  | .syncValidBlockhashes, answer => ∀ hash, answer = .ok hash → state.blockHash ≠ some hash →
      ∀ interval, (me, .started (.tick interval)) ∈ trace → interval + 1 = state.intervals
  | _, _ => True

/-- The runs in which no poll overlaps the interval or the adoption of an earlier poll. -/
def RpcService.carefulSemantics (service : RpcService) :
    Semantics RpcState RpcAnswer Thrown Unit RpcTask where
  program := service.program
  mayStart := RpcTask.mayStartAlone
  admits := newestAdopts
  disturbs _ _ := False

/-- The careful runs are runs of the service. -/
theorem carefulSemantics_within (service : RpcService) :
    service.carefulSemantics.Within (service.semantics anyAnswer) where
  program := rfl
  mayStart := by
    intro state trace task enabled
    cases task with
    | pollMiningInfo => trivial
    | tick interval => exact enabled
    | submitProof submission => trivial
  admits _ := trivial
  disturbs impossible := impossible

/-- The armed interval is the newest one. A listed callback that adopted a hash and still waits belongs to
it, and one that does not wait has left no interval armed. -/
structure ArmedFor (listed : ℕ → Prop) (state : RpcState) (trace : Trace RpcAnswer RpcTask) : Prop where
  newest : ∀ interval ∈ state.running, interval + 1 = state.intervals
  single : state.running.length ≤ 1
  current : ∀ me, listed me → Adopted me trace → Awaits me trace →
    ∀ interval, (me, .started (.tick interval)) ∈ trace → interval + 1 = state.intervals
  cleared : ∀ me, listed me → Adopted me trace →
    Awaits me trace ∨ PolledSince me trace ∨ state.running = []

def ArmedInvariant : RpcState → Trace RpcAnswer RpcTask → Prop := ArmedFor fun _ => True

def intervalContract : Contract RpcState RpcAnswer RpcTask where
  admits := newestAdopts
  monitor _ _ _ := True
  rely _ _ := True
  invariant := ArmedInvariant

/-- A callback between its adoption and its end belongs to the newest interval. -/
structure Adopting (me interval : ℕ) (state : RpcState) (trace : Trace RpcAnswer RpcTask) : Prop where
  others : ArmedFor (· ≠ me) state trace
  adopted : Adopted me trace
  current : interval + 1 = state.intervals
  started : (me, .started (.tick interval)) ∈ trace
  only : ∀ other, (me, .started (.tick other)) ∈ trace → other = interval

section Steps

variable {me : ℕ} {state : RpcState} {trace : Trace RpcAnswer RpcTask}
  {event : Event RpcAnswer RpcTask}

theorem Adopted.of_cons {other : ℕ} (different : me ≠ other)
    (adopted : Adopted other ((me, event) :: trace)) : Adopted other trace := by
  obtain ⟨hash, member⟩ := adopted
  rcases List.mem_cons.mp member with equal | member
  · exact absurd (Prod.mk.inj equal).1.symm different
  · exact ⟨hash, member⟩

theorem awaits_cons_iff {other : ℕ} (different : me ≠ other) :
    Awaits other ((me, event) :: trace) ↔ Awaits other trace :=
  (extends_cons different).awaits_iff

theorem PolledSince.cons {other : ℕ} (different : me ≠ other) (polled : PolledSince other trace) :
    PolledSince other ((me, event) :: trace) := by
  obtain ⟨later, earlier, poll, rfl, quiet⟩ := polled
  refine ⟨(me, event) :: later, earlier, poll, rfl, ?_⟩
  intro event' member
  rcases List.mem_cons.mp member with equal | member
  · exact different (Prod.mk.inj equal).1.symm
  · exact quiet event' member

/-- No poll has started since the newest event of the trace. -/
theorem not_polledSince_cons_self (silent : event ≠ .started .pollMiningInfo) :
    ¬ PolledSince me ((me, event) :: trace) := by
  rintro ⟨later, earlier, poll, whole, quiet⟩
  cases later with
  | nil => exact silent (Prod.mk.inj (List.cons.inj whole).1).2
  | cons pair later =>
      apply quiet event
      rw [(List.cons.inj whole).1]
      exact List.mem_cons_self

/-- An event of a thread that has adopted nothing keeps the intervals in order. -/
theorem ArmedFor.cons {listed : ℕ → Prop} (kept : ArmedFor listed state trace)
    (bystander : listed me → ¬ Adopted me ((me, event) :: trace)) :
    ArmedFor listed state ((me, event) :: trace) := by
  have different : ∀ {other}, listed other → Adopted other ((me, event) :: trace) → me ≠ other := by
    intro other isListed adopted same
    subst same
    exact bystander isListed adopted
  refine ⟨kept.newest, kept.single, ?_, ?_⟩
  · intro other isListed adopted waits interval member
    have distinct := different isListed adopted
    apply kept.current other isListed (adopted.of_cons distinct) ((awaits_cons_iff distinct).mp waits)
    rcases List.mem_cons.mp member with equal | member
    · exact absurd (Prod.mk.inj equal).1.symm distinct
    · exact member
  · intro other isListed adopted
    have distinct := different isListed adopted
    rcases kept.cleared other isListed (adopted.of_cons distinct) with waits | polled | none
    · exact Or.inl ((awaits_cons_iff distinct).mpr waits)
    · exact Or.inr (Or.inl (polled.cons distinct))
    · exact Or.inr (Or.inr none)

/-- The callback that adopts waits for an answer again. -/
theorem Adopting.issued {interval : ℕ} (adopting : Adopting me interval state trace) (request : RpcCall) :
    ArmedInvariant state ((me, .issued request) :: trace) := by
  have others : ArmedFor (· ≠ me) state ((me, .issued request) :: trace) :=
    adopting.others.cons fun different => absurd rfl different
  refine ⟨others.newest, others.single, ?_, ?_⟩
  · intro other _ adopted waits interval' member
    by_cases same : other = me
    · subst same
      rcases List.mem_cons.mp member with equal | member
      · cases equal
      · rw [adopting.only interval' member]
        exact adopting.current
    · exact others.current other same adopted waits interval' member
  · intro other _ adopted
    by_cases same : other = me
    · subst same
      exact Or.inl (awaits_cons_self other request trace)
    · exact others.cleared other same adopted

/-- While the callback waited, no poll has started. -/
theorem Adopting.answered {interval : ℕ} {state' : RpcState} {trace' : Trace RpcAnswer RpcTask}
    (adopting : Adopting me interval state trace) {request : RpcCall} (answer : RpcAnswer request)
    (extension : Extends me ((me, .issued request) :: trace) trace') (kept : ArmedInvariant state' trace') :
    Adopting me interval state' ((me, .answered request answer) :: trace') := by
  have grows : trace ⊆ trace' := fun pair member => extension.mem (List.mem_cons_of_mem _ member)
  have adopted : Adopted me trace' := by
    obtain ⟨hash, member⟩ := adopting.adopted
    exact ⟨hash, grows member⟩
  have waits : Awaits me trace' := extension.awaits_iff.mpr (awaits_cons_self me request trace)
  have others : ArmedFor (· ≠ me) state' trace' :=
    ⟨kept.newest, kept.single, fun other _ => kept.current other trivial,
      fun other _ => kept.cleared other trivial⟩
  refine ⟨others.cons fun different => absurd rfl different, ?_, ?_, ?_, ?_⟩
  · obtain ⟨hash, member⟩ := adopted
    exact ⟨hash, List.mem_cons_of_mem _ member⟩
  · exact kept.current me trivial adopted waits interval (grows adopting.started)
  · exact List.mem_cons_of_mem _ (grows adopting.started)
  · intro other member
    rcases List.mem_cons.mp member with equal | member
    · cases equal
    · rcases List.mem_cons.mp (extension.mem_of_mine member) with equal | member
      · cases equal
      · exact adopting.only other member

/-- The callback that adopted a hash clears the only armed interval at its end. -/
theorem Adopting.clears {interval : ℕ} (adopting : Adopting me interval state trace) :
    ArmedInvariant { state with running := state.running.erase interval } trace := by
  have none : state.running.erase interval = [] := by
    have newest := adopting.others.newest
    have single := adopting.others.single
    have current := adopting.current
    rcases armed : state.running with _ | ⟨first, rest⟩
    · rfl
    · have same : first = interval := by
        have := newest first (by rw [armed]; exact List.mem_cons_self)
        omega
      have alone : rest = [] := by
        rw [armed, List.length_cons] at single
        exact List.length_eq_zero_iff.mp (by omega)
      rw [same, alone, List.erase_cons_head]
  refine ⟨?_, ?_, ?_, fun _ _ _ => Or.inr (Or.inr none)⟩
  · intro other member
    rw [none] at member
    cases member
  · rw [none]
    exact Nat.zero_le 1
  · intro other _ adopted waits interval' member
    by_cases same : other = me
    · subst same
      rw [adopting.only interval' member]
      exact adopting.current
    · exact adopting.others.current other same adopted waits interval' member

end Steps

/-- A bystander has adopted nothing. -/
def Bystander (me : ℕ) (state : RpcState) (trace : Trace RpcAnswer RpcTask) : Prop :=
  ArmedInvariant state trace ∧ ¬ Adopted me trace

section Bystanders

variable {me : ℕ} {state : RpcState} {trace : Trace RpcAnswer RpcTask}
  {event : Event RpcAnswer RpcTask}

/-- A bystander stays one until it emits a hash. -/
theorem Bystander.cons (bystander : Bystander me state trace)
    (silent : ∀ hash, event ≠ .called (.nextBlock hash) ()) : Bystander me state ((me, event) :: trace) := by
  have idle : ¬ Adopted me ((me, event) :: trace) := by
    rintro ⟨hash, member⟩
    rcases List.mem_cons.mp member with equal | member
    · exact silent hash (Prod.mk.inj equal).2.symm
    · exact bystander.2 ⟨hash, member⟩
  exact ⟨bystander.1.cons fun _ => idle, idle⟩

theorem Bystander.issued (bystander : Bystander me state trace) (request : RpcCall) :
    Bystander me state ((me, .issued request) :: trace) :=
  bystander.cons fun _ equal => by cases equal

theorem Bystander.answered {state' : RpcState} {trace' : Trace RpcAnswer RpcTask}
    (bystander : Bystander me state trace) {request : RpcCall} (answer : RpcAnswer request)
    (extension : Extends me ((me, .issued request) :: trace) trace') (kept : ArmedInvariant state' trace') :
    Bystander me state' ((me, .answered request answer) :: trace') := by
  have resumed : Bystander me state' trace' := by
    refine ⟨kept, ?_⟩
    rintro ⟨hash, member⟩
    exact (bystander.issued request).2 ⟨hash, extension.mem_of_mine member⟩
  exact resumed.cons fun _ equal => by cases equal

/-- A program that neither asks for a hash nor emits one leaves its thread a bystander. -/
theorem wp_of_bystander {V : Type} {program : RpcProgram V}
    (confined : Confined RpcCall.Hashless program) (bystander : Bystander me state trace) :
    wp intervalContract me program (fun _ => Bystander me) state trace := by
  apply wp_of_confined_between confined bystander
  · intro state trace request answer bystander hashless
    refine ⟨trivial, bystander.cons ?_⟩
    intro hash equal
    cases equal
    exact hashless
  · intro state trace request bystander hashless
    refine ⟨trivial, (bystander.issued request).1, ?_⟩
    intro state' trace' answer _ extension kept
    exact ⟨trivial, bystander.answered answer extension kept⟩

/-- The same program keeps the adoption of its thread. -/
theorem wp_of_adopting {V : Type} {program : RpcProgram V} {interval : ℕ}
    (confined : Confined RpcCall.Hashless program) (adopting : Adopting me interval state trace) :
    wp intervalContract me program (fun _ => Adopting me interval) state trace := by
  apply wp_of_confined_between confined adopting
  · intro state trace request answer adopting _
    obtain ⟨others, ⟨hash, member⟩, current, started, only⟩ := adopting
    refine ⟨trivial, others.cons fun different => absurd rfl different,
      ⟨hash, List.mem_cons_of_mem _ member⟩, current, List.mem_cons_of_mem _ started, ?_⟩
    intro other member
    rcases List.mem_cons.mp member with equal | member
    · cases equal
    · exact only other member
  · intro state trace request adopting _
    refine ⟨trivial, adopting.issued request, ?_⟩
    intro state' trace' answer _ extension kept
    exact ⟨trivial, adopting.answered answer extension kept⟩

end Bystanders

theorem unfailing_updateUserData : Unfailing updateUserData := unfailing_attempt fun _ => trivial

section Polls

variable {me : ℕ} {state : RpcState} {trace : Trace RpcAnswer RpcTask}

/-- The one thread of a callback is a bystander before its answer, and it adopts a new hash only while its
interval is the newest one. -/
theorem wp_pollMiningInfoOnce_of_bystander {interval : ℕ} (bystander : Bystander me state trace)
    (started : (me, .started (.tick interval)) ∈ trace)
    (only : ∀ other, (me, .started (.tick other)) ∈ trace → other = interval) :
    wp intervalContract me pollMiningInfoOnce (fun result state trace => match result with
      | .ok true => Adopting me interval state trace
      | _ => Bystander me state trace) state trace := by
  unfold pollMiningInfoOnce getMiningInfo
  refine ⟨trivial, (bystander.issued .syncValidBlockhashes).1, ?_⟩
  intro state₁ trace₁ _ extension kept₁ answer admitted
  have resumed : Bystander me state₁ ((me, .answered .syncValidBlockhashes answer) :: trace₁) :=
    bystander.answered answer extension kept₁
  refine ⟨trivial, ?_⟩
  cases answer with
  | error thrown => exact resumed
  | ok miningInfo =>
      show wp intervalContract me (if state₁.blockHash ≠ some miningInfo then _ else _) _ _ _
      split
      · rename_i fresh
        have member : (me, .started (.tick interval)) ∈ trace₁ :=
          extension.mem (List.mem_cons_of_mem _ started)
        intro _ _
        refine ⟨trivial, trivial, ?_⟩
        show wp intervalContract me ((updateUserData.joined .turn).bind fun _ => .done true) _ _ _
        rw [wp_bind]
        have adopting : Adopting me interval
            { state₁ with newBlock := miningInfo, blockHash := some miningInfo }
            ((me, .called (.nextBlock miningInfo) ()) ::
              (me, .answered .syncValidBlockhashes (.ok miningInfo)) :: trace₁) := by
          refine ⟨?_, ⟨miningInfo, List.mem_cons_self⟩, admitted miningInfo rfl fresh interval member,
            List.mem_cons_of_mem _ (List.mem_cons_of_mem _ member), ?_⟩
          · have others : ArmedFor (· ≠ me) state₁
                ((me, .answered .syncValidBlockhashes (.ok miningInfo)) :: trace₁) :=
              ⟨resumed.1.newest, resumed.1.single, fun other _ => resumed.1.current other trivial,
                fun other _ => resumed.1.cleared other trivial⟩
            have emitted : ArmedFor (· ≠ me) state₁ ((me, .called (.nextBlock miningInfo) ()) ::
                (me, .answered .syncValidBlockhashes (.ok miningInfo)) :: trace₁) :=
              others.cons fun different => absurd rfl different
            exact ⟨emitted.newest, emitted.single, emitted.current, emitted.cleared⟩
          · intro other member
            rcases List.mem_cons.mp member with equal | member
            · cases equal
            · rcases List.mem_cons.mp member with equal | member
              · cases equal
              · rcases List.mem_cons.mp (extension.mem_of_mine member) with equal | member
                · cases equal
                · exact only other member
        apply wp_mono _ (wp_of_unfailing (unfailing_updateUserData.joined)
          (wp_of_adopting (confined_turn confined_updateUserData) adopting))
        rintro result state₂ trace₂ ⟨⟨value, rfl⟩, adopting⟩
        exact adopting
      · exact resumed

/-- The callback that adopted a hash clears its interval, and every other callback leaves it armed. -/
theorem wp_pollTick_of_bystander {interval : ℕ} (bystander : Bystander me state trace)
    (started : (me, .started (.tick interval)) ∈ trace)
    (only : ∀ other, (me, .started (.tick other)) ∈ trace → other = interval) :
    wp intervalContract me (pollTick interval) (fun _ => ArmedInvariant) state trace := by
  unfold pollTick
  simp only [Program.bind_eq]
  rw [wp_bind, wp_joined]
  apply wp_mono _ (wp_pollMiningInfoOnce_of_bystander bystander started only)
  intro result state₁ trace₁ holds
  cases result with
  | error thrown =>
      refine ⟨trivial, (holds.issued .turn).1, ?_⟩
      intro state₂ trace₂ _ extension kept answer _
      exact ⟨trivial, (holds.answered answer extension kept).1⟩
  | ok finished =>
      cases finished with
      | false =>
          refine ⟨trivial, (holds.issued .turn).1, ?_⟩
          intro state₂ trace₂ _ extension kept answer _
          exact ⟨trivial, (holds.answered answer extension kept).1⟩
      | true =>
          refine ⟨trivial, holds.issued .turn, ?_⟩
          intro state₂ trace₂ _ extension kept answer _
          refine ⟨trivial, trivial, ?_⟩
          exact (holds.answered answer extension kept).clears

/-- A poll that overlaps nothing arms the only interval. -/
theorem armedInvariant_of_mayStartAlone (fresh : ∀ event, (me, event) ∉ trace)
    (enabled : RpcTask.pollMiningInfo.mayStartAlone state trace) :
    ArmedInvariant { state with intervals := state.intervals + 1, running := state.intervals :: state.running }
      ((me, .started .pollMiningInfo) :: trace) := by
  obtain ⟨none, ended⟩ := enabled
  have different : ∀ {other}, Adopted other ((me, .started .pollMiningInfo) :: trace) →
      me ≠ other ∧ Adopted other trace := by
    rintro other ⟨hash, member⟩
    rcases List.mem_cons.mp member with equal | member
    · cases equal
    · refine ⟨?_, hash, member⟩
      rintro rfl
      exact fresh _ member
  refine ⟨?_, ?_, ?_, ?_⟩
  · intro interval member
    rw [none] at member
    rw [List.mem_singleton.mp member]
  · rw [none]
    exact Nat.le_refl 1
  · intro other _ adopted waits
    obtain ⟨distinct, adopted⟩ := different adopted
    exact absurd ((awaits_cons_iff distinct).mp waits) (ended other adopted)
  · intro other _ adopted
    exact Or.inr (Or.inl ⟨[], trace, me, rfl, fun _ => List.not_mem_nil⟩)

end Polls

/-- The careful polls keep their intervals in order beside any number of submissions. -/
theorem intervalContract_proved (service : RpcService) :
    intervalContract.Proved service.carefulSemantics {} where
  sameAnswers := rfl
  relyRefl _ := trivial
  relyTrans _ _ _ _ _ := trivial
  initially := by
    refine ⟨?_, Nat.zero_le 1, ?_, ?_⟩
    · intro interval member
      cases member
    · rintro me _ ⟨hash, member⟩
      cases member
    · rintro me _ ⟨hash, member⟩
      cases member
  starts := by
    intro state trace me task kept enabled fresh
    refine ⟨trivial, ?_⟩
    have idle : ¬ Adopted me trace := by
      rintro ⟨hash, member⟩
      exact fresh _ member
    have bystander : Bystander me state ((me, .started task) :: trace) :=
      Bystander.cons ⟨kept, idle⟩ fun _ equal => by cases equal
    cases task with
    | pollMiningInfo => exact ⟨trivial, armedInvariant_of_mayStartAlone fresh enabled⟩
    | tick interval =>
        apply wp_pollTick_of_bystander bystander List.mem_cons_self
        intro other member
        rcases List.mem_cons.mp member with equal | member
        · cases equal
          rfl
        · exact absurd member (fresh _)
    | submitProof submission =>
        have confined : Confined RpcCall.Hashless
            ((service.submitProof submission).bind fun _ => .done ()) :=
          (confined_submitProof service submission).bind fun _ => trivial
        apply wp_mono _ (wp_of_bystander confined bystander)
        exact fun _ _ _ bystander => bystander.1
  disturbed _ _ _ _ impossible := impossible.elim

/-- Polls that overlap nothing keep at most one interval armed, and the callback that adopts a hash leaves
none. -/
theorem careful_singlyArmed (service : RpcService) {system : System RpcState RpcAnswer Thrown Unit RpcTask}
    (reached : Reachable service.carefulSemantics {} system) : SinglyArmed system := by
  obtain ⟨kept, _⟩ := (intervalContract_proved service).reachable reached
  refine ⟨kept.single, ?_⟩
  intro me result ended adopted unpolled
  rcases kept.cleared me trivial adopted with waits | polled | none
  · exact absurd waits (reached.not_awaits ended)
  · exact absurd polled unpolled
  · exact none

/-- One poll adopts a hash and leaves no interval armed. -/
theorem careful_singlyArmed_after_adoption :
    ∃ system : System RpcState RpcAnswer Thrown Unit RpcTask,
      Reachable (RpcService.carefulSemantics ⟨List.replicate 32 7, "devnet"⟩) {} system ∧
        Adopted 1 system.trace ∧ SinglyArmed system := by
  let service : RpcService := ⟨List.replicate 32 7, "devnet"⟩
  let hash : Bytes := List.replicate 32 2
  have polling : Step service.carefulSemantics ⟨{}, [], []⟩
      ⟨{ intervals := 1, running := [0] }, [(0, .started .pollMiningInfo)], [.ended (.ok ())]⟩ := by
    refine .start .pollMiningInfo ⟨rfl, ?_⟩ (.read (.store .done))
    rintro me ⟨hash, member⟩
    cases member
  have running : (0 : ℕ) ∈ ([0] : List ℕ) := List.mem_singleton.mpr rfl
  have newest : newestAdopts 1 { intervals := 1, running := [0] }
      [(1, .issued .syncValidBlockhashes), (1, .started (.tick 0)), (0, .started .pollMiningInfo)]
      .syncValidBlockhashes (.ok hash) := by
    intro _ _ _ interval member
    simp only [List.mem_cons, Prod.mk.injEq, Event.started.injEq, RpcTask.tick.injEq] at member
    simp_all
  have reached : Reachable service.carefulSemantics {} _ :=
    ((((((Relation.ReflTransGen.single polling).tail (.start (.tick 0) running .await)).tail
      (.resume 1 rfl (.ok hash) newest (.read (.call () trivial (.read (.store .await)))))).tail
        (.resume 1 rfl (.ok ()) trivial .await)).tail (.resume 1 rfl () trivial .await)).tail
          (.resume 1 rfl () trivial .await)).tail (.resume 1 rfl () trivial (.read (.store .done)))
  exact ⟨_, reached, ⟨hash, by simp⟩, careful_singlyArmed service reached⟩

/-- A start shortly before midnight arms two intervals, and the first adoption clears one of them. -/
theorem singlyArmed_fails_for_overlapping_polls :
    ∃ system : System RpcState RpcAnswer Thrown Unit RpcTask,
      Reachable (RpcService.semantics ⟨List.replicate 32 7, "devnet"⟩ anyAnswer) {} system ∧
        ¬ SinglyArmed system := by
  let service : RpcService := ⟨List.replicate 32 7, "devnet"⟩
  let hash : Bytes := List.replicate 32 2
  have startup : Step (service.semantics anyAnswer) ⟨{}, [], []⟩
      ⟨{ intervals := 1, running := [0] }, [(0, .started .pollMiningInfo)], [.ended (.ok ())]⟩ :=
    .start .pollMiningInfo trivial (.read (.store .done))
  have midnight : Step (service.semantics anyAnswer)
      ⟨{ intervals := 1, running := [0] }, [(0, .started .pollMiningInfo)], [.ended (.ok ())]⟩
      ⟨{ intervals := 2, running := [1, 0] },
        [(1, .started .pollMiningInfo), (0, .started .pollMiningInfo)],
        [.ended (.ok ()), .ended (.ok ())]⟩ :=
    .start .pollMiningInfo trivial (.read (.store .done))
  have running : (0 : ℕ) ∈ ([1, 0] : List ℕ) := List.mem_cons_of_mem _ List.mem_cons_self
  refine ⟨_, (((((((Relation.ReflTransGen.single startup).tail midnight).tail
    (.start (.tick 0) running .await)).tail
      (.resume 2 rfl (.ok hash) trivial (.read (.call () trivial (.read (.store .await)))))).tail
        (.resume 2 rfl (.ok ()) trivial .await)).tail (.resume 2 rfl () trivial .await)).tail
          (.resume 2 rfl () trivial .await)).tail (.resume 2 rfl () trivial (.read (.store .done))), ?_⟩
  intro armed
  have cleared := armed.cleared 2 (.ok ()) rfl ⟨hash, by simp⟩ (not_polledSince_cons_self (by simp))
  exact absurd (show ([1] : List ℕ) = [] from cleared) (List.cons_ne_nil 1 [])

end ComptoMiningPool
