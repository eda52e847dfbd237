import ComptoMiningPool.Client.Startup
import ComptoMiningPool.Client.SubmissionRun

/-
This file proves that one session id goes into everything that a connection announces, hashes, stores, and
deletes.
-/

namespace ComptoMiningPool

open JavaScript Async

/-- The trace carries one session id. Each subscription is answered with it in both places, each proof is
hashed from it, the entity is inserted under it, and the teardown deletes it. -/
structure CarriesSession (sha256 : Bytes → Bytes) (sessionId : String) (trace : ClientTrace) : Prop where
  answered : ∀ me requestId elements,
    (me, .issued (.writeSocket (.response requestId (.array elements)))) ∈ trace →
      elements = subscriptionResult sessionId
  hashed : ∀ me submission, (me, .issued (.submitProof submission)) ∈ trace →
    ∃ fields message jobTemplateId template,
      (me, .answered (.validateSubmit fields) (.ok (.valid message))) ∈ trace ∧
      (me, .called (.getJobTemplateById jobTemplateId) (some (.own template))) ∈ trace ∧
      submission.extraData = doubleSHA256 sha256 (Bytes.ofHex
        (extraDataText template.block (some sessionId) message.extraNonce2))
  inserted : ∀ me client, (me, .issued (.insertClient client)) ∈ trace → client.sessionId = some sessionId
  deleted : ∀ me deletedId, (me, .issued (.deleteClient deletedId)) ∈ trace → deletedId = sessionId

/-- A random number is printed with eight digits in lower case and reads back. -/
theorem getRandomHexString_digits (randomNumber : BitVec 32) :
    LowerHexDigits 8 (getRandomHexString randomNumber) ∧
      hexNumber (getRandomHexString randomNumber) = randomNumber.toNat :=
  ⟨lowerHexDigits_padStart (by omega) randomNumber.isLt, hexNumber_padStart 8 randomNumber.toNat⟩

/-- A drawn session id prints the random number that was drawn for it. -/
theorem exists_randomNumber {trace : ClientTrace} {sessionId : String} (drawn : sessionId ∈ sessionIds trace) :
    ∃ randomNumber, sessionId = getRandomHexString randomNumber := by
  obtain ⟨⟨me, event⟩, _, drew⟩ := List.mem_filterMap.mp drawn
  cases event with
  | called request answer =>
      cases request with
      | randomBytes => exact ⟨answer, (Option.some.inj drew).symm⟩
      | _ => cases drew
  | _ => cases drew

section Carries

variable {sha256 : Bytes → Bytes} {decoder : Decoder}
  {system : System ClientState ClientAnswer Thrown Unit ClientTask}

/-- Each event of the trace carries the id that the connection holds. -/
theorem carriesSession_of_stored (reached : Reachable (clientSemantics sha256 decoder) {} system)
    {sessionId : String} (holds : ∀ drawn, system.state.extraNonceAndSessionId = some drawn → drawn = sessionId) :
    CarriesSession sha256 sessionId system.trace := by
  obtain ⟨kept, accepted⟩ := (submissionContract_proved sha256 decoder).reachable reached
  have same : ∀ earlier drawn, earlier ⊆ system.trace → sessionIds earlier = [drawn] → drawn = sessionId :=
    fun earlier drawn older once => holds drawn (kept.core.stored_of_drawn older once)
  constructor
  · intro me requestId elements member
    obtain ⟨earlier, older, _, drawn, once, announced⟩ := accepted.of_mem member
    rw [announced, same earlier drawn older once]
  · intro me submission member
    obtain ⟨earlier, older, _, sources, drawn, progressed, once, hashed⟩ := accepted.of_mem member
    have message : sources.message ∈ (submitProgress me earlier).messages := by
      rw [progressed]
      exact List.mem_singleton.mpr rfl
    have template : some (.own sources.template) ∈ (submitProgress me earlier).templates := by
      rw [progressed]
      exact List.mem_singleton.mpr rfl
    obtain ⟨fields, validated⟩ := mem_messages_iff.mp message
    obtain ⟨jobTemplateId, looked⟩ := mem_templates_iff.mp template
    refine ⟨fields, sources.message, jobTemplateId, sources.template, older validated, older looked, ?_⟩
    rw [hashed, same earlier drawn older once]
  · intro me client member
    obtain ⟨earlier, older, _, _, drawn, once, named⟩ := accepted.of_mem member
    rw [named, same earlier drawn older once]
  · intro me deletedId member
    obtain ⟨earlier, older, _, once⟩ := accepted.of_mem member
    exact same earlier deletedId older once

end Carries

/-- In every interleaving one random number, printed with eight digits in lower case, is the session id that
the connection holds and that all of its messages, proofs, and rows carry. -/
theorem connection_carries_one_session (sha256 : Bytes → Bytes) (decoder : Decoder)
    {system : System ClientState ClientAnswer Thrown Unit ClientTask}
    (reached : Reachable (clientSemantics sha256 decoder) {} system) :
    ∃ randomNumber : BitVec 32,
      LowerHexDigits 8 (getRandomHexString randomNumber) ∧
      hexNumber (getRandomHexString randomNumber) = randomNumber.toNat ∧
      (∀ sessionId, system.state.extraNonceAndSessionId = some sessionId →
        sessionId = getRandomHexString randomNumber) ∧
      CarriesSession sha256 (getRandomHexString randomNumber) system.trace := by
  have kept := ((submissionContract_proved sha256 decoder).reachable reached).1
  have held : ∃ randomNumber, ∀ sessionId, system.state.extraNonceAndSessionId = some sessionId →
      sessionId = getRandomHexString randomNumber := by
    cases stored : system.state.extraNonceAndSessionId with
    | none => exact ⟨0, fun _ impossible => by cases impossible⟩
    | some sessionId =>
        have drawn : sessionId ∈ sessionIds system.trace := by
          rw [kept.core.session, stored]
          exact List.mem_singleton.mpr rfl
        obtain ⟨randomNumber, printed⟩ := exists_randomNumber drawn
        refine ⟨randomNumber, ?_⟩
        intro other same
        rw [← Option.some.inj same]
        exact printed
  obtain ⟨randomNumber, holds⟩ := held
  have digits := getRandomHexString_digits randomNumber
  exact ⟨randomNumber, digits.1, digits.2, holds, carriesSession_of_stored reached holds⟩

/-- A session that inserts its entity and passes a proof on carries the id that it drew. -/
theorem session_carries_one_session :
    (∃ pair ∈ sessionSystem.trace, ClientEvent.touchesEntity pair.2 = true) ∧
      (∃ pair ∈ sessionSystem.trace, ClientEvent.passesProof pair.2 = true) ∧
      ∃ randomNumber : BitVec 32,
        LowerHexDigits 8 (getRandomHexString randomNumber) ∧
        hexNumber (getRandomHexString randomNumber) = randomNumber.toNat ∧
        (∀ sessionId, sessionSystem.state.extraNonceAndSessionId = some sessionId →
          sessionId = getRandomHexString randomNumber) ∧
        CarriesSession id (getRandomHexString randomNumber) sessionSystem.trace :=
  ⟨by decide +kernel, by decide +kernel, connection_carries_one_session _ _ sessionSystem_reachable⟩

end ComptoMiningPool
