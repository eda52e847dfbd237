import ComptoMiningPool.Client.Startup

/-
This file proves which address a submission pays when a connection authorizes several workers.
-/

namespace ComptoMiningPool

open JavaScript Async

/-- Each payout goes to the newest stored authorization, and each stored authorization was validated by
the handler that stored it. -/
def PaysLastAuthorized (trace : ClientTrace) : Prop :=
  Accepted (fun earlier me event =>
    (∀ submission, event = .issued (.submitProof submission) → ∃ authorization,
      (authorizations earlier).head? = some authorization ∧
        submission.recipient = authorization.address) ∧
    ∀ authorization answer, event = .called (.authorized authorization) answer → ∃ fields,
      (me, .answered (.validateAuthorization fields) (.ok (.valid authorization))) ∈ earlier) trace

/-- In every interleaving a submission pays the address that its connection authorized last, whatever
worker the submission names, and without a validated authorization it pays nobody. -/
theorem connection_pays_last_authorized (sha256 : Bytes → Bytes) (decoder : Decoder)
    {system : System ClientState ClientAnswer Thrown Unit ClientTask}
    (reached : Reachable (clientSemantics sha256 decoder) {} system) :
    PaysLastAuthorized system.trace := by
  have accepted := ((connectionContract_proved sha256 decoder).reachable reached).2
  unfold PaysLastAuthorized
  refine accepted.mono ?_
  intro earlier me event monitored
  constructor
  · rintro submission rfl
    exact monitored
  · rintro authorization answer rfl
    exact monitored

def ClientEvent.recipient? : ClientEvent → Option String
  | .issued (.submitProof submission) => some submission.recipient
  | _ => none

def ClientEvent.worker? : ClientEvent → Option String
  | .answered (.validateSubmit _) (.ok (.valid message)) => some message.userId
  | _ => none

/-- The addresses that submissions paid, newest first. -/
def recipients (trace : ClientTrace) : List String :=
  trace.filterMap fun pair => ClientEvent.recipient? pair.2

/-- The workers that validated submissions named, newest first. -/
def submitters (trace : ClientTrace) : List String := trace.filterMap fun pair => ClientEvent.worker? pair.2

/-- A worker is named by its user id or by its full name. -/
def AuthorizationMessage.Names (authorization : AuthorizationMessage) (worker : String) : Prop :=
  worker = authorization.worker ∨ worker = authorization.address ++ "." ++ authorization.worker

/-- Each payout goes to an address that was authorized for the worker that the submission names. -/
def PaysNamedWorker (trace : ClientTrace) : Prop :=
  Accepted (fun earlier me event => ∀ submission, event = .issued (.submitProof submission) →
    ∃ fields message, (me, .answered (.validateSubmit fields) (.ok (.valid message))) ∈ earlier ∧
      ∃ authorization ∈ authorizations earlier,
        authorization.Names message.userId ∧ submission.recipient = authorization.address) trace

/-- The session pays the second address for the worker of the first one. -/
theorem connection_pays_last_authorized_session :
    recipients sessionSystem.trace = ["second"] ∧ PaysLastAuthorized sessionSystem.trace :=
  ⟨by decide +kernel, connection_pays_last_authorized _ _ sessionSystem_reachable⟩

/-- A connection pays the address of another worker than the one that the submission names. -/
theorem connection_pays_other_worker :
    ∃ system : System ClientState ClientAnswer Thrown Unit ClientTask,
      Reachable (clientSemantics id (stratumDecoder fun _ => true)) {} system ∧
        ¬ PaysNamedWorker system.trace := by
  refine ⟨sessionSystem, sessionSystem_reachable, ?_⟩
  intro paysNamed
  have paid : "second" ∈ recipients sessionSystem.trace := by decide +kernel
  obtain ⟨⟨me, event⟩, member, recipient⟩ := List.mem_filterMap.mp paid
  have recipient : ClientEvent.recipient? event = some "second" := recipient
  obtain ⟨submission, rfl, toSecond⟩ : ∃ submission, event = .issued (.submitProof submission) ∧
      submission.recipient = "second" := by
    unfold ClientEvent.recipient? at recipient
    split at recipient
    · exact ⟨_, rfl, Option.some.inj recipient⟩
    · cases recipient
  obtain ⟨earlier, grows, named⟩ := paysNamed.of_mem member
  obtain ⟨fields, message, validated, authorization, stored, names, same⟩ := named submission rfl
  have worker : message.userId = "worker1" := by
    have submitted : message.userId ∈ submitters sessionSystem.trace :=
      List.mem_filterMap.mpr ⟨_, grows validated, rfl⟩
    have only : submitters sessionSystem.trace = ["worker1"] := by decide +kernel
    rw [only] at submitted
    exact List.mem_singleton.mp submitted
  have known : (authorization.address, authorization.worker) ∈
      (authorizations sessionSystem.trace).map fun message => (message.address, message.worker) := by
    obtain ⟨pair, inside, authorizes⟩ := List.mem_filterMap.mp stored
    exact List.mem_map_of_mem (List.mem_filterMap.mpr ⟨pair, grows inside, authorizes⟩)
  have both : ((authorizations sessionSystem.trace).map fun message =>
      (message.address, message.worker)) = [("second", "worker2"), ("first", "worker1")] := by
    decide +kernel
  rw [both, ← same, toSecond] at known
  simp only [List.mem_cons, Prod.mk.injEq, List.not_mem_nil, or_false] at known
  rcases known with ⟨_, second⟩ | ⟨impossible, _⟩
  · rw [AuthorizationMessage.Names, worker, second, ← same, toSecond] at names
    rcases names with impossible | impossible
    · exact absurd impossible (by decide)
    · exact absurd impossible (by decide)
  · exact absurd impossible (by decide)

end ComptoMiningPool
