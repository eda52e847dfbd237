import ComptoMiningPool.Async.Budget
import ComptoMiningPool.Client.Responses
import ComptoMiningPool.Client.Submitting

/-
This file proves that a connection hands over at most one proof for each line that it has received.
-/

namespace ComptoMiningPool

open JavaScript Async

/-- Only the handover of a proof costs. -/
def ClientCall.proofs : ClientCall → ℕ
  | .submitProof _ => 1
  | _ => 0

/-- A free program hands no proof over. -/
abbrev FreeProgram {V : Type} (program : ClientProgram V) : Prop := Makes (fun call => call.proofs = 0) program

section Free

variable {V : Type}

theorem ClientCall.Silent.free {call : ClientCall} (silent : call.Silent) : call.proofs = 0 := by
  cases call with
  | submitProof submission => exact silent.elim
  | _ => rfl

theorem free_of_silent {program : ClientProgram V} (silent : Makes ClientCall.Silent program) : FreeProgram program :=
  silent.mono fun _ => ClientCall.Silent.free

theorem free_assert_bind {asserted : Asserted} {condition : Bool} {message : String} {rest : Unit → ClientProgram V}
    (free : FreeProgram (rest ())) : FreeProgram ((assert asserted condition message).bind rest) := by
  refine ⟨rfl, fun _ => ?_⟩
  cases condition with
  | false => trivial
  | true => exact free

theorem free_writeToClosed : FreeProgram writeToClosed := by
  refine ⟨rfl, fun _ => ?_⟩
  apply makes_load
  intro state
  split
  · exact (free_of_silent silent_destroySocket).bind fun _ => trivial
  · trivial

theorem free_writeFailed : FreeProgram writeFailed := by
  refine ⟨rfl, fun _ => ?_⟩
  apply makes_load
  intro state
  split
  · exact (free_of_silent silent_endSocket).bind fun _ => trivial
  · split
    · exact (free_of_silent silent_destroySocket).bind fun _ => trivial
    · trivial

theorem free_answer (line : Line) : FreeProgram ((write line).joined .turn) := by
  refine Makes.joined ?_ rfl
  apply Makes.attempt _ fun _ => free_writeFailed
  apply makes_load
  intro state
  split
  · exact ⟨rfl, fun written => (makes_ofExcept written).bind fun _ => trivial⟩
  · exact free_writeToClosed

theorem free_validateMessage {M : Type} {validate : ClientProgram (Validated M)} (free : FreeProgram validate) :
    FreeProgram ((validateMessage validate).joined .turn) := by
  refine Makes.joined ?_ rfl
  apply free.bind
  intro validated
  cases validated with
  | invalid id errors => exact (free_answer _).bind fun _ => trivial
  | valid message => trivial

theorem free_handleSubscriptionMessage (fields : Fields) : FreeProgram (handleSubscriptionMessage fields) := by
  have validates : FreeProgram (validateSubscription fields) := ⟨rfl, makes_ofExcept⟩
  apply (free_validateMessage validates).bind
  intro validated
  cases validated with
  | error written => trivial
  | ok subscriptionMessage =>
      have starts : FreeProgram startSession := by
        intro state
        show FreeProgram (if state.sessionStart.isNone then _ else _)
        split
        · exact ⟨rfl, fun _ _ => ⟨rfl, fun _ _ => trivial⟩⟩
        · trivial
      exact starts.bind fun _ _ _ => free_answer _

theorem free_handleConfigureMessage (fields : Fields) : FreeProgram (handleConfigureMessage fields) := by
  have validates : FreeProgram (validateConfiguration fields) := ⟨rfl, makes_ofExcept⟩
  apply (free_validateMessage validates).bind
  intro validated
  cases validated with
  | error written => trivial
  | ok configurationMessage => exact fun _ => free_answer _

theorem free_handleAuthorizationMessage (fields : Fields) : FreeProgram (handleAuthorizationMessage fields) := by
  have validates : FreeProgram (validateAuthorization fields) := ⟨rfl, makes_ofExcept⟩
  apply (free_validateMessage validates).bind
  intro validated
  cases validated with
  | error written => trivial
  | ok authorizationMessage => exact fun _ => ⟨rfl, fun _ => free_answer _⟩

theorem free_startWhenReady : FreeProgram startWhenReady := by
  apply makes_load
  intro state
  split
  · refine Makes.joined ?_ rfl
    refine ⟨rfl, fun _ state => ?_⟩
    apply free_assert_bind
    apply free_assert_bind
    intro _
    refine ⟨rfl, fun cluster => ⟨rfl, fun rawDifficulty => ?_⟩⟩
    apply (free_answer _).bind
    intro success
    cases success with
    | false => trivial
    | true => exact ⟨rfl, fun _ _ => trivial⟩
  · trivial

theorem free_sendNewMiningJob (template : JobTemplate) : FreeProgram (sendNewMiningJob template) := by
  refine ⟨rfl, fun job => ?_⟩
  apply (makes_ofExcept (MiningJob.response job template)).bind
  exact fun line => (free_answer line).bind fun _ => trivial

theorem free_rollVersion (submission : MiningSubmitMessage) (version : ℕ) :
    FreeProgram (rollVersion submission version) := by
  apply makes_load
  intro state
  split
  · trivial
  · split
    · apply free_assert_bind
      show FreeProgram (if _ then _ else _)
      split
      · exact (free_answer _).bind fun _ => trivial
      · trivial
    · trivial

end Free

section Spending

variable {V : Type} {sha256 : Bytes → Bytes}

/-- The program hands at most one proof over. -/
abbrev HandsOnce (program : ClientProgram V) : Prop := Spends ClientCall.proofs program 1

theorem handsOnce_assert_bind {asserted : Asserted} {condition : Bool} {message : String}
    {rest : Unit → ClientProgram V} (once : HandsOnce (rest ())) :
    HandsOnce ((assert asserted condition message).bind rest) := by
  refine ⟨Nat.zero_le _, fun _ => ?_⟩
  cases condition with
  | false => trivial
  | true => exact once

/-- The proof is handed over once, and each reply to it is answered without another one. -/
theorem handsOnce_payMiner (submission : MiningSubmitMessage) (extraData : Bytes) (version : Number) :
    HandsOnce (payMiner submission extraData version) := by
  refine ⟨Nat.zero_le _, fun fee => ?_⟩
  apply handsOnce_assert_bind
  intro state
  simp only [Program.pure_eq, Program.bind]
  cases state.clientAuthorization with
  | none => trivial
  | some clientAuthorization =>
      refine ⟨Nat.le_refl _, fun answer => Makes.spends ?_⟩
      apply (makes_ofExcept answer).bind
      intro result
      show FreeProgram (if _ then _ else _)
      split
      · split
        · exact (free_answer _).bind fun _ => trivial
        · exact (free_answer _).bind fun _ => trivial
      · trivial

theorem handsOnce_handleMiningSubmission (submission : MiningSubmitMessage) :
    HandsOnce (handleMiningSubmission sha256 submission) := by
  intro state
  apply handsOnce_assert_bind
  apply (free_of_silent silent_awaitEntity).bind_spends
  intro _
  refine ⟨Nat.zero_le _, fun job => ?_⟩
  cases job with
  | none => exact Makes.spends ((free_answer _).bind fun _ => trivial)
  | some job =>
      refine ⟨Nat.zero_le _, fun jobTemplate => ?_⟩
      apply handsOnce_assert_bind
      cases jobTemplate with
      | none => trivial
      | some entry =>
          cases entry with
          | inherited => trivial
          | own template =>
              intro state
              apply (free_rollVersion submission template.block.version).bind_spends
              intro rolled
              cases rolled with
              | error written => trivial
              | ok version => exact handsOnce_payMiner _ _ _

theorem handsOnce_handleSubmitMessage (fields : Fields) : HandsOnce (handleSubmitMessage sha256 fields) := by
  have validates : FreeProgram (validateSubmit fields) := ⟨rfl, makes_ofExcept⟩
  apply (free_validateMessage validates).bind_spends
  intro validated
  cases validated with
  | error written => trivial
  | ok submission =>
      intro state
      show HandsOnce (if _ then _ else _)
      split
      · exact Makes.spends ((free_answer _).bind fun _ => trivial)
      · apply ((handsOnce_handleMiningSubmission submission).joined rfl).bind
        intro result
        cases result with
        | false => trivial
        | true => exact free_answer _

theorem handsOnce_dispatch (method : Option RequestMethod) (fields : Fields) :
    HandsOnce (dispatch sha256 method fields) := by
  cases method with
  | none => trivial
  | some method =>
      cases method with
      | subscribe => exact (free_handleSubscriptionMessage fields).spends.joined rfl
      | configure => exact (free_handleConfigureMessage fields).spends.joined rfl
      | authorize => exact (free_handleAuthorizationMessage fields).spends.joined rfl
      | suggestDifficulty => trivial
      | submit =>
          intro state
          show HandsOnce (if !state.stratumInitialized then _ else _)
          split
          · exact Makes.spends ((free_of_silent silent_endSocket).bind fun _ => trivial)
          · exact (handsOnce_handleSubmitMessage fields).joined rfl

theorem handsOnce_task (task : ClientTask) : HandsOnce (task.program sha256) := by
  have ends : FreeProgram endSocket := free_of_silent silent_endSocket
  cases task with
  | destroy => exact (free_of_silent silent_destroy).spends
  | newMiningJob template => exact ((free_sendNewMiningJob template).spends.joined rfl).attempt fun _ => ends
  | line message =>
      apply Spends.attempt _ fun _ => ends
      refine Spends.joined ?_ rfl
      cases message with
      | none => exact ends.spends
      | some parsedMessage =>
          apply Makes.bind_spends (makes_ofExcept _)
          intro method
          apply (handsOnce_dispatch (RequestMethod.ofValue method) (requestFields parsedMessage)).bind
          intro success
          cases success with
          | false => trivial
          | true => exact free_startWhenReady

end Spending

/-- The thread starts with a submit request. -/
def ClientEvent.startsSubmit : ClientEvent → Bool
  | .started (.line (some request)) =>
      ((Value.field (some request) "method").toOption.bind RequestMethod.ofValue) = some .submit
  | _ => false

/-- The threads of the events of a kind, newest first. -/
def threadsOf (kind : ClientEvent → Bool) (trace : ClientTrace) : List ℕ :=
  (trace.filter fun pair => kind pair.2).map Prod.fst

theorem mem_threadsOf {kind : ClientEvent → Bool} {trace : ClientTrace} {me : ℕ} :
    me ∈ threadsOf kind trace ↔ ∃ event, (me, event) ∈ trace ∧ kind event = true := by
  simp [threadsOf]

theorem length_threadsOf (kind : ClientEvent → Bool) (trace : ClientTrace) :
    (threadsOf kind trace).length = trace.countP fun pair => kind pair.2 := by
  rw [threadsOf, List.length_map, List.countP_eq_length_filter]

/-- The threads of the proofs are among the threads that spend. -/
theorem threadsOf_passesProof_sublist (trace : ClientTrace) :
    (threadsOf ClientEvent.passesProof trace).Sublist (spenders ClientCall.proofs trace) := by
  apply List.Sublist.map
  apply List.monotone_filter_right
  rintro ⟨me, event⟩ passes
  change ClientEvent.passesProof event = true at passes
  unfold ClientEvent.passesProof at passes
  split at passes
  · rfl
  · cases passes

/-- A thread hands at most one proof over. -/
theorem Reachable.passesProof_nodup {sha256 : Bytes → Bytes} {decoder : Decoder}
    {system : System ClientState ClientAnswer Thrown Unit ClientTask}
    (reached : Reachable (clientSemantics sha256 decoder) {} system) :
    (threadsOf ClientEvent.passesProof system.trace).Nodup :=
  (threadsOf_passesProof_sublist system.trace).nodup (reached.spenders_nodup handsOnce_task)

/-- Each proof has a thread of its own, which a submit request started, so that there are no more proofs than
submit requests. -/
structure HandsOverOnce (trace : ClientTrace) : Prop where
  once : (threadsOf ClientEvent.passesProof trace).Nodup
  requested : threadsOf ClientEvent.passesProof trace ⊆ threadsOf ClientEvent.startsSubmit trace
  bounded : (trace.countP fun pair => ClientEvent.passesProof pair.2) ≤
    trace.countP fun pair => ClientEvent.startsSubmit pair.2

/-- In every interleaving a connection hands at most one proof over for each submit request that it has received,
however the chain service answers and however often a handler waits. -/
theorem connection_hands_over_once (sha256 : Bytes → Bytes) (decoder : Decoder)
    {system : System ClientState ClientAnswer Thrown Unit ClientTask}
    (reached : Reachable (clientSemantics sha256 decoder) {} system) : HandsOverOnce system.trace := by
  have once : (threadsOf ClientEvent.passesProof system.trace).Nodup := Reachable.passesProof_nodup reached
  have requested : threadsOf ClientEvent.passesProof system.trace ⊆
      threadsOf ClientEvent.startsSubmit system.trace := by
    intro me member
    obtain ⟨event, inside, passes⟩ := mem_threadsOf.mp member
    obtain ⟨history, suffix, own⟩ := Reachable.answersOwn reached inside
    unfold ClientEvent.passesProof at passes
    split at passes
    · obtain ⟨fields, message, ⟨request, value, started, named, method, _⟩, _⟩ := own
      refine mem_threadsOf.mpr ⟨_, mem_own.mp (suffix.subset (List.mem_cons_of_mem _ started)), ?_⟩
      rw [ClientEvent.startsSubmit, named]
      exact decide_eq_true method
    · cases passes
  refine ⟨once, requested, ?_⟩
  rw [← length_threadsOf, ← length_threadsOf]
  exact (once.subperm requested).length_le

/-- The session hands one proof over for its one submit. -/
theorem connection_hands_over_once_session :
    threadsOf ClientEvent.passesProof sessionSystem.trace = [4] ∧ HandsOverOnce sessionSystem.trace :=
  ⟨by decide +kernel, connection_hands_over_once _ _ sessionSystem_reachable⟩

end ComptoMiningPool
