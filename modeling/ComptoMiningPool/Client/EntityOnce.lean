import ComptoMiningPool.Client.Startup
import ComptoMiningPool.Client.SubmissionRun

/-
This file proves that a connection inserts its entity once and that its submissions wait for it.
-/

namespace ComptoMiningPool

open JavaScript Async

namespace ClientEvent

def inserts : ClientEvent → Bool
  | .issued (.insertClient _) => true
  | _ => false

def looksUpJob : ClientEvent → Bool
  | .called (.getJobById _) _ => true
  | _ => false

theorem touchesEntity_of_inserts {event : ClientEvent} (inserts : inserts event = true) :
    touchesEntity event = true := by
  cases event with
  | issued request =>
      cases request with
      | insertClient client => rfl
      | _ => cases inserts
  | _ => cases inserts

end ClientEvent

/-- One step of a connection looks up a job for a submission. -/
def LooksUpJob (before after : System ClientState ClientAnswer Thrown Unit ClientTask) : Prop :=
  ∃ added, after.trace = added ++ before.trace ∧ ∃ pair ∈ added, ClientEvent.looksUpJob pair.2 = true

/-- A connection inserts its entity at most once. A submission reaches the lookup of its job in a step that
finds the entity set and its insertion resolved. A rejected insertion leaves no lookup at all. -/
structure EntityOnce (sha256 : Bytes → Bytes) (decoder : Decoder)
    (system : System ClientState ClientAnswer Thrown Unit ClientTask) : Prop where
  once : (system.trace.countP fun pair => ClientEvent.inserts pair.2) ≤ 1
  waits : ∀ after, Step (clientSemantics sha256 decoder) system after → LooksUpJob system after →
    system.state.entity = true ∧ EntityInserted system.trace
  rejected : EntityRejected system.trace → ∀ pair ∈ system.trace, ClientEvent.looksUpJob pair.2 = false

/-- A lookup finds its insertion in the trace before its step. -/
theorem inserted_of_looksUpJob {sha256 : Bytes → Bytes} {trace : ClientTrace} {me : ℕ} {event : ClientEvent}
    (monitored : submissionMonitor sha256 trace me event) (looks : ClientEvent.looksUpJob event = true) :
    EntityInserted (beforeStep trace) := by
  cases event with
  | called request answer =>
      cases request with
      | getJobById jobId => exact monitored.2.1
      | _ => cases looks
  | _ => cases looks

section Claims

variable {sha256 : Bytes → Bytes} {decoder : Decoder}
  {system : System ClientState ClientAnswer Thrown Unit ClientTask}

theorem inserts_at_most_once (reached : Reachable (clientSemantics sha256 decoder) {} system) :
    (system.trace.countP fun pair => ClientEvent.inserts pair.2) ≤ 1 := by
  have accepted := ((submissionContract_proved sha256 decoder).reachable reached).2
  apply countP_le_one_of_accepted
  refine accepted.mono ?_
  intro earlier me event monitored inserts pair member
  have clean : ∀ pair ∈ earlier, ClientEvent.touchesEntity pair.2 = false := by
    cases event with
    | issued request =>
        cases request with
        | insertClient client => exact monitored.2.1
        | _ => cases inserts
    | _ => cases inserts
  cases again : ClientEvent.inserts pair.2 with
  | false => rfl
  | true =>
      have touches := clean pair member
      rw [ClientEvent.touchesEntity_of_inserts again] at touches
      cases touches

/-- The step of a lookup finds the entity set. -/
theorem entity_of_looksUpJob (reached : Reachable (clientSemantics sha256 decoder) {} system)
    {after : System ClientState ClientAnswer Thrown Unit ClientTask}
    (step : Step (clientSemantics sha256 decoder) system after) (looks : LooksUpJob system after) :
    system.state.entity = true ∧ EntityInserted system.trace := by
  obtain ⟨added, grown, ⟨me, event⟩, member, looked⟩ := looks
  obtain ⟨later, earlier, rfl⟩ := List.append_of_mem member
  have kept := ((submissionContract_proved sha256 decoder).reachable reached).1
  have accepted := ((submissionContract_proved sha256 decoder).reachable (reached.tail step)).2
  have monitored := accepted me event (earlier ++ system.trace) (by
    rw [grown, List.append_assoc]
    exact List.suffix_append _ _)
  have continues : event.resumes = false := by
    cases event with
    | called request answer => rfl
    | _ => cases looked
  have inserted := inserted_of_looksUpJob monitored looked
  rw [step.beforeStep_eq grown later earlier rfl continues] at inserted
  exact ⟨kept.core.inserted.mpr inserted, inserted⟩

theorem no_lookup_of_rejected (reached : Reachable (clientSemantics sha256 decoder) {} system)
    (rejected : EntityRejected system.trace) :
    ∀ pair ∈ system.trace, ClientEvent.looksUpJob pair.2 = false := by
  obtain ⟨kept, accepted⟩ := (submissionContract_proved sha256 decoder).reachable reached
  rintro ⟨me, event⟩ member
  cases looks : ClientEvent.looksUpJob event with
  | false => rfl
  | true =>
      obtain ⟨earlier, older, monitored⟩ := accepted.of_mem member
      have inserted := inserted_of_looksUpJob monitored looks
      have grows : beforeStep earlier ⊆ system.trace := List.Subset.trans (beforeStep_subset earlier) older
      exact absurd rejected (kept.core.exclusive (inserted.mono grows))

end Claims

/-- In every interleaving a connection inserts its entity once, its submissions wait for the result, and a
rejection stops all of them. -/
theorem connection_entity_once (sha256 : Bytes → Bytes) (decoder : Decoder)
    {system : System ClientState ClientAnswer Thrown Unit ClientTask}
    (reached : Reachable (clientSemantics sha256 decoder) {} system) : EntityOnce sha256 decoder system :=
  ⟨inserts_at_most_once reached, fun _ => entity_of_looksUpJob reached, no_lookup_of_rejected reached⟩

/-- A session that submits a share inserts its entity and then looks up its job. -/
theorem connection_entity_once_for_session :
    (∃ pair ∈ sessionSystem.trace, ClientEvent.inserts pair.2 = true) ∧
      (∃ pair ∈ sessionSystem.trace, ClientEvent.looksUpJob pair.2 = true) ∧
      EntityOnce id (stratumDecoder fun _ => true) sessionSystem :=
  ⟨by decide +kernel, by decide +kernel, connection_entity_once _ _ sessionSystem_reachable⟩

end ComptoMiningPool
