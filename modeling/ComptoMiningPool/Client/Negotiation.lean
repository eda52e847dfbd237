import ComptoMiningPool.Async.Threads
import ComptoMiningPool.Client.Recipient
import ComptoMiningPool.Client.VersionGate

/-
This file proves that a connection hands over proofs only after it has negotiated version rolling.
-/

namespace ComptoMiningPool

open JavaScript Async

/-- The trace validated this configuration. -/
def ConfigurationValidated (configuration : ConfigurationMessage) (trace : ClientTrace) : Prop :=
  ∃ me fields, (me, .answered (.validateConfiguration fields) (.ok (.valid configuration))) ∈ trace

/-- The trace validated a configuration with version rolling. -/
def RollingNegotiated (trace : ClientTrace) : Prop :=
  ∃ configuration, ConfigurationValidated configuration trace ∧ configuration.versionRolling = true

theorem ConfigurationValidated.mono {configuration : ConfigurationMessage} {before after : ClientTrace}
    (grows : before ⊆ after) : ConfigurationValidated configuration before →
      ConfigurationValidated configuration after := by
  rintro ⟨me, fields, member⟩
  exact ⟨me, fields, grows member⟩

theorem RollingNegotiated.mono {before after : ClientTrace} (grows : before ⊆ after) :
    RollingNegotiated before → RollingNegotiated after := by
  rintro ⟨configuration, validated, rolling⟩
  exact ⟨configuration, validated.mono grows, rolling⟩

/-- The stored configuration was validated, and a proof that was just issued finds one. -/
structure NegotiationInvariant (state : ClientState) (trace : ClientTrace) : Prop where
  stored : ∀ configuration, state.clientConfiguration = some configuration →
    ConfigurationValidated configuration trace
  passed : ∀ me submission, trace.head? = some (me, .issued (.submitProof submission)) →
    state.clientConfiguration.isSome

def negotiationContract (decoder : Decoder) : Contract ClientState ClientAnswer ClientTask where
  admits := clientAdmits decoder
  monitor trace _ event := ∀ submission, event = .issued (.submitProof submission) → RollingNegotiated trace
  rely before after := before.clientConfiguration.isSome → after.clientConfiguration.isSome
  invariant := NegotiationInvariant

/-- The calls apart from the handover of a proof. -/
def ClientCall.Unpaid : ClientCall → Prop
  | .submitProof _ => False
  | _ => True

theorem ClientCall.Ordinary.unpaid (request : ClientCall) (ordinary : request.Ordinary) : request.Unpaid := by
  cases request with
  | submitProof submission => exact ordinary.elim
  | _ => trivial

/-- A program of the frame keeps the configuration and hands over no proof. -/
abbrev UnpaidProgram {V : Type} (program : ClientProgram V) : Prop :=
  (clientFrame SameConfiguration ClientCall.Unpaid).Covers program

section Rules

variable {decoder : Decoder} {me : ℕ} {V : Type} {state : ClientState} {trace : ClientTrace}

theorem NegotiationInvariant.cons (kept : NegotiationInvariant state trace) {event : ClientEvent}
    (unpaid : ∀ submission, event ≠ .issued (.submitProof submission)) :
    NegotiationInvariant state ((me, event) :: trace) := by
  constructor
  · intro configuration held
    exact (kept.stored configuration held).mono (List.subset_cons_self _ _)
  · intro other submission newest
    cases newest
    exact absurd rfl (unpaid submission)

theorem NegotiationInvariant.same (kept : NegotiationInvariant state trace) {after : ClientState}
    (same : SameConfiguration state after) : NegotiationInvariant after trace := by
  constructor
  · intro configuration held
    exact kept.stored configuration (same.symm.trans held)
  · intro other submission newest
    rw [same]
    exact kept.passed other submission newest

theorem negotiation_sound (decoder : Decoder) (me : ℕ) :
    (clientFrame SameConfiguration ClientCall.Unpaid).Sound (negotiationContract decoder) me
      NegotiationInvariant where
  stable _ := trivial
  kept kept := kept
  called answer kept _ :=
    ⟨fun _ impossible => (by cases impossible), kept.cons fun _ impossible => (by cases impossible)⟩
  issued := by
    intro state trace request kept allowed
    have unpaid : ∀ submission, (.issued request : ClientEvent) ≠ .issued (.submitProof submission) := by
      intro submission same
      cases same
      exact allowed
    exact ⟨fun submission same => absurd same (unpaid submission), kept.cons unpaid⟩
  answered request answer kept :=
    ⟨fun _ impossible => (by cases impossible), kept.cons fun _ impossible => (by cases impossible)⟩
  resumed _ _ _ kept := kept
  stored kept same := by
    refine ⟨fun held => ?_, kept.same same⟩
    rw [same]
    exact held

/-- A thread behind the gate finds a configuration, and version rolling was negotiated. -/
structure Gated (state : ClientState) (trace : ClientTrace) : Prop extends NegotiationInvariant state trace where
  configured : state.clientConfiguration.isSome
  rolling : RollingNegotiated trace

theorem Gated.cons (gated : Gated state trace) (event : ClientEvent) : Gated state ((me, event) :: trace) := by
  have grows : trace ⊆ (me, event) :: trace := List.subset_cons_self _ _
  refine ⟨⟨?_, fun _ _ _ => gated.configured⟩, gated.configured, gated.rolling.mono grows⟩
  intro configuration held
  exact (gated.stored configuration held).mono grows

/-- Behind the gate every call is sound. -/
theorem gated_sound (decoder : Decoder) (me : ℕ) :
    (clientFrame SameConfiguration fun _ => True).Sound (negotiationContract decoder) me Gated where
  stable _ := trivial
  kept gated := gated.toNegotiationInvariant
  called answer gated _ := ⟨fun _ _ => gated.rolling, gated.cons _⟩
  issued gated _ := ⟨fun _ _ => gated.rolling, gated.cons _⟩
  answered request answer gated := ⟨fun _ _ => gated.rolling, gated.cons _⟩
  resumed gated relied extension kept :=
    ⟨kept, relied gated.configured, gated.rolling.mono extension.suffix.subset⟩
  stored gated same := by
    refine ⟨fun held => ?_, gated.toNegotiationInvariant.same same, ?_, gated.rolling⟩
    · rw [same]
      exact held
    · rw [same]
      exact gated.configured

theorem wp_of_unpaid {program : ClientProgram V} (unpaid : UnpaidProgram program)
    (kept : NegotiationInvariant state trace) :
    wp (negotiationContract decoder) me program (fun _ => NegotiationInvariant) state trace :=
  Frame.wp_of_holds (negotiation_sound decoder me) (unpaid state trivial) kept

end Rules

section Handlers

variable {decoder : Decoder} {me : ℕ} {state : ClientState} {trace : ClientTrace}

theorem unpaid_ordinary (request : ClientCall) (ordinary : request.Ordinary) : request.Unpaid :=
  ClientCall.Ordinary.unpaid request ordinary

theorem unpaid_closes (request : ClientCall) (closes : request.ClosesSocket) : request.Unpaid :=
  closes.ordinary.unpaid

theorem unpaid_answer (line : Line) : UnpaidProgram ((write line).joined ClientCall.turn) :=
  covers_reply sameConfiguration_of_ordinary unpaid_closes trivial

/-- A validated message leaves the answer of its validation in the trace. -/
theorem wp_validatesMessage {M : Type} (request : ClientCall)
    (result : ClientAnswer request → Except Thrown (Validated M)) (unpaid : request.Unpaid)
    (kept : NegotiationInvariant state trace) :
    wp (negotiationContract decoder) me
      ((validateMessage ((Program.awaiting request).bind fun answer => .ofExcept (result answer))).joined .turn)
      (fun outcome state trace => NegotiationInvariant state trace ∧ ∀ message, outcome = .ok (.ok message) →
        ∃ answer, result answer = .ok (.valid message) ∧ (me, .answered request answer) ∈ trace ∧
          ∃ state earlier, clientAdmits decoder me state earlier request answer)
      state trace := by
  have sound := negotiation_sound decoder me
  have recorded : ∀ outcome : Except Thrown (Except Bool M),
      (clientFrame SameConfiguration ClientCall.Unpaid).Sound (negotiationContract decoder) me
        fun state trace => NegotiationInvariant state trace ∧ ∀ message, outcome = .ok (.ok message) →
          ∃ answer, result answer = .ok (.valid message) ∧ (me, .answered request answer) ∈ trace ∧
            ∃ state earlier, clientAdmits decoder me state earlier request answer := by
    intro outcome
    apply sound.and_mono
    intro before after grows holds message accepted
    obtain ⟨answer, valid, member, admitted⟩ := holds message accepted
    exact ⟨answer, valid, grows member, admitted⟩
  have turns : ∀ state, (clientFrame SameConfiguration ClientCall.Unpaid).allowed state ClientCall.turn :=
    fun _ => trivial
  apply Frame.wp_joined_of_sound recorded turns
  have issued := sound.issued kept unpaid
  refine ⟨issued.1, issued.2, ?_⟩
  intro state' trace' relied extension kept' answer admitted
  have answered := sound.answered request answer kept'
  refine ⟨answered.1, ?_⟩
  show wp _ me ((Program.ofExcept (result answer)).bind _) _ state' _
  cases validated : result answer with
  | error thrown => exact ⟨answered.2, fun _ impossible => nomatch impossible⟩
  | ok decoded =>
      cases decoded with
      | valid message =>
          refine ⟨answered.2, ?_⟩
          intro other same
          cases same
          exact ⟨answer, validated, List.mem_cons_self, state', trace', admitted⟩
      | invalid id errors =>
          show wp _ me (((write _).joined .turn).bind fun written => .done (Except.error written)) _ state' _
          rw [wp_bind]
          apply wp_mono _ (wp_of_unpaid (unpaid_answer _) answered.2)
          intro written state trace kept
          cases written with
          | ok written => exact ⟨kept, fun _ impossible => nomatch impossible⟩
          | error thrown => exact ⟨kept, fun _ impossible => nomatch impossible⟩

theorem unpaid_startSession : UnpaidProgram startSession := by
  apply Frame.covers_load
  intro state
  split
  · apply covers_perform_bind trivial
    intro sessionStart
    apply covers_modify_bind
    · exact fun state => sameConfiguration_of_store state _ (.sessionStart sessionStart)
    · apply covers_perform_bind trivial
      exact fun randomNumber =>
        Frame.covers_modify fun state => sameConfiguration_of_store state _ (.session randomNumber)
  · exact Frame.covers_done ()

theorem unpaid_handleSubscriptionMessage (fields : Fields) :
    UnpaidProgram (handleSubscriptionMessage fields) := by
  have validates : UnpaidProgram (validateSubscription fields) := covers_request trivial
  apply covers_bind
  · exact (covers_validateMessage sameConfiguration_of_ordinary unpaid_ordinary validates).joined fun _ => trivial
  · intro validated
    cases validated with
    | error written => exact Frame.covers_done written
    | ok subscriptionMessage =>
        apply covers_bind unpaid_startSession
        intro _
        apply covers_modify_bind
        · exact fun state => sameConfiguration_of_store state _ (.subscription subscriptionMessage)
        · apply Frame.covers_load
          exact fun state => unpaid_answer _

theorem unpaid_destroy : UnpaidProgram destroy := by
  have unsubscribes : UnpaidProgram (Program.load.bind fun state =>
      if state.stratumSubscription then Program.perform ClientCall.unsubscribe else .done ()) := by
    apply Frame.covers_load
    intro state
    split
    · exact Frame.covers_perform fun _ => trivial
    · exact Frame.covers_done ()
  apply Frame.covers_load
  intro state
  cases state.extraNonceAndSessionId with
  | none => exact unsubscribes
  | some sessionId =>
      apply covers_awaiting_bind trivial
      intro deleted
      exact covers_bind (Frame.covers_ofExcept deleted) fun _ => unsubscribes

/-- The configuration is stored after its validation, and it is never taken back. -/
theorem NegotiationInvariant.configured {message : ConfigurationMessage} (validated : ConfigurationValidated message trace) :
    NegotiationInvariant { state with clientConfiguration := some message } trace := by
  constructor
  · intro configuration held
    cases held
    exact validated
  · exact fun _ _ _ => rfl

theorem wp_configures (fields : Fields) (kept : NegotiationInvariant state trace) :
    wp (negotiationContract decoder) me (handleConfigureMessage fields) (fun _ => NegotiationInvariant)
      state trace := by
  unfold handleConfigureMessage
  rw [Program.bind_eq, wp_bind]
  apply wp_mono _ (wp_validatesMessage (.validateConfiguration fields) id trivial kept)
  rintro outcome state trace ⟨kept, validated⟩
  cases outcome with
  | error thrown => exact kept
  | ok decoded =>
      cases decoded with
      | error written => exact kept
      | ok message =>
          obtain ⟨answer, rfl, member, _⟩ := validated message rfl
          refine ⟨fun _ => rfl, ?_⟩
          exact wp_of_unpaid (unpaid_answer _) (.configured ⟨me, fields, member⟩)

/-- The gate of a submit tests the negotiated configuration. -/
theorem Gated.of_rolling (kept : NegotiationInvariant state trace)
    (rolling : state.clientConfiguration.map ConfigurationMessage.versionRolling = some true) :
    Gated state trace := by
  obtain ⟨configuration, held, rolls⟩ := Option.map_eq_some_iff.mp rolling
  exact ⟨kept, held ▸ rfl, configuration, kept.stored configuration held, rolls⟩

theorem wp_submits_negotiated (sha256 : Bytes → Bytes) {isPublicKey : String → Bool} (fields : Fields)
    (kept : NegotiationInvariant state trace) :
    wp (negotiationContract (stratumDecoder isPublicKey)) me (handleSubmitMessage sha256 fields)
      (fun _ => NegotiationInvariant) state trace := by
  unfold handleSubmitMessage
  rw [Program.bind_eq, wp_bind]
  apply wp_mono _ (wp_validatesMessage (.validateSubmit fields) id trivial kept)
  rintro outcome state trace ⟨kept, validated⟩
  cases outcome with
  | error thrown => exact kept
  | ok decoded =>
      cases decoded with
      | error written => exact kept
      | ok submission =>
          obtain ⟨answer, rfl, _, _, _, admitted⟩ := validated submission rfl
          have masked := (MiningSubmitMessage.decode_valid admitted.symm).2
          show wp _ me (if state.clientConfiguration.map ConfigurationMessage.versionRolling ≠
            some (hasValue submission.versionMask) then _ else _) _ state trace
          split
          · exact wp_of_unpaid (covers_bind (unpaid_answer _) fun _ => Frame.covers_done _) kept
          · rename_i passed
            have gated : Gated state trace := .of_rolling kept (by rw [not_not.mp passed, masked])
            have behind : Keeps SameConfiguration (((handleMiningSubmission sha256 submission).joined .turn).bind
                fun result => if !result then pure false else (write submission.response).joined .turn) := by
              apply covers_bind (keeps_handleMiningSubmission sameConfiguration_of_store sha256 submission).joined
              intro result
              split
              · exact Frame.covers_done _
              · exact keeps_answer sameConfiguration_of_store _
            apply wp_mono _ (Frame.wp_of_holds (gated_sound (stratumDecoder isPublicKey) me)
              (behind state trivial) gated)
            exact fun _ _ _ after => after.toNegotiationInvariant

theorem wp_negotiated_joined {V : Type} {program : ClientProgram V}
    (holds : wp (negotiationContract decoder) me program (fun _ => NegotiationInvariant) state trace) :
    wp (negotiationContract decoder) me (program.joined .turn) (fun _ => NegotiationInvariant) state trace :=
  have turns : ∀ state, (clientFrame SameConfiguration ClientCall.Unpaid).allowed state ClientCall.turn :=
    fun _ => trivial
  Frame.wp_joined_of_sound (fun _ => negotiation_sound decoder me) turns holds

theorem wp_negotiated_guarded {program : ClientProgram Unit}
    (holds : wp (negotiationContract decoder) me program (fun _ => NegotiationInvariant) state trace) :
    wp (negotiationContract decoder) me (guarded program) (fun _ => NegotiationInvariant) state trace := by
  unfold guarded
  rw [wp_attempt]
  apply wp_mono _ (wp_negotiated_joined holds)
  intro result state trace kept
  cases result with
  | ok done => exact kept
  | error thrown => exact wp_of_unpaid (covers_endSocket sameConfiguration_of_ordinary unpaid_closes) kept

theorem wp_negotiated_dispatch (sha256 : Bytes → Bytes) {isPublicKey : String → Bool}
    (method : Option RequestMethod) (fields : Fields) (kept : NegotiationInvariant state trace) :
    wp (negotiationContract (stratumDecoder isPublicKey)) me (dispatch sha256 method fields)
      (fun _ => NegotiationInvariant) state trace := by
  cases method with
  | none => exact kept
  | some method =>
      cases method with
      | suggestDifficulty => exact kept
      | configure => exact wp_negotiated_joined (wp_configures fields kept)
      | subscribe => exact wp_negotiated_joined (wp_of_unpaid (unpaid_handleSubscriptionMessage fields) kept)
      | authorize =>
          exact wp_negotiated_joined (wp_of_unpaid
            (covers_handleAuthorizationMessage sameConfiguration_of_ordinary unpaid_ordinary fields) kept)
      | submit =>
          show wp _ me (if !state.stratumInitialized then _ else _) _ state trace
          split
          · have ends : UnpaidProgram endSocket := covers_endSocket sameConfiguration_of_ordinary unpaid_closes
            exact wp_of_unpaid (covers_bind ends fun _ => Frame.covers_done false) kept
          · exact wp_negotiated_joined (wp_submits_negotiated sha256 fields kept)

theorem wp_negotiated_handleMessage (sha256 : Bytes → Bytes) {isPublicKey : String → Bool} (line : Option Json)
    (kept : NegotiationInvariant state trace) :
    wp (negotiationContract (stratumDecoder isPublicKey)) me (handleMessage sha256 line)
      (fun _ => NegotiationInvariant) state trace := by
  cases line with
  | none => exact wp_of_unpaid (covers_endSocket sameConfiguration_of_ordinary unpaid_closes) kept
  | some parsedMessage =>
      show wp _ me ((Program.ofExcept (Value.field (some parsedMessage) "method")).bind _) _ state trace
      cases Value.field (some parsedMessage) "method" with
      | error thrown => exact kept
      | ok method =>
          show wp _ me ((dispatch sha256 _ _).bind _) _ state trace
          rw [wp_bind]
          apply wp_mono _ (wp_negotiated_dispatch sha256 _ _ kept)
          intro result state trace kept
          cases result with
          | error thrown => exact kept
          | ok success =>
              exact wp_of_unpaid (covers_continue sameConfiguration_of_ordinary unpaid_ordinary success) kept

end Handlers

theorem negotiationContract_proved (sha256 : Bytes → Bytes) (isPublicKey : String → Bool) :
    (negotiationContract (stratumDecoder isPublicKey)).Proved
      (clientSemantics sha256 (stratumDecoder isPublicKey)) {} where
  sameAnswers := rfl
  relyRefl _ := id
  relyTrans _ _ _ first second held := second (first held)
  initially := ⟨fun _ impossible => (nomatch impossible), fun _ _ impossible => (nomatch impossible)⟩
  starts := by
    intro state trace me task kept _ _
    have started : NegotiationInvariant state ((me, .started task) :: trace) :=
      kept.cons fun _ impossible => (by cases impossible)
    refine ⟨fun _ impossible => (by cases impossible), ?_⟩
    cases task with
    | line message => exact wp_negotiated_guarded (wp_negotiated_handleMessage sha256 message started)
    | destroy => exact wp_of_unpaid unpaid_destroy started
    | newMiningJob template =>
        exact wp_negotiated_guarded (wp_of_unpaid
          (covers_sendNewMiningJob sameConfiguration_of_ordinary unpaid_ordinary template) started)
  disturbed := by
    rintro state state' trace kept ⟨destroyed, writableEnded, rfl⟩
    exact ⟨id, kept.stored, kept.passed⟩

theorem ClientEvent.authorizes_eq {event : ClientEvent} {message : AuthorizationMessage}
    (authorized : event.authorizes = some message) : event = .called (.authorized message) () := by
  unfold ClientEvent.authorizes at authorized
  split at authorized
  · cases authorized
    rfl
  · cases authorized

/-- A proof pays the address of an authorization that the connection has validated. -/
theorem Reachable.authorized_of_issued {sha256 : Bytes → Bytes} {decoder : Decoder}
    {system : System ClientState ClientAnswer Thrown Unit ClientTask}
    (reached : Reachable (clientSemantics sha256 decoder) {} system) {index : ℕ} {submission : Submission}
    {earlier : ClientTrace} (suffix : (index, .issued (.submitProof submission)) :: earlier <:+ system.trace) :
    ∃ me fields authorization,
      (me, .answered (.validateAuthorization fields) (.ok (.valid authorization))) ∈ earlier ∧
        submission.recipient = authorization.address := by
  have connected := ((connectionContract_proved sha256 decoder).reachable reached).2
  obtain ⟨authorization, newest, paid⟩ := connected index _ earlier suffix
  -- The newest stored authorization was recorded by the handler that validated it.
  obtain ⟨⟨me, stores⟩, member, authorizes⟩ := List.mem_filterMap.mp (List.mem_of_mem_head? newest)
  obtain rfl := ClientEvent.authorizes_eq authorizes
  obtain ⟨before, within, fields, validated⟩ :=
    (Accepted.of_suffix connected ((List.suffix_cons _ _).trans suffix)).of_mem member
  exact ⟨me, fields, authorization, within validated, paid⟩

/-- Each proof is handed over after a configuration with version rolling and an authorization were
validated, and the connection pays the address of that authorization. -/
def HandsOverNegotiated (trace : ClientTrace) : Prop :=
  Accepted (fun earlier _ event => ∀ submission, event = .issued (.submitProof submission) →
    RollingNegotiated earlier ∧ ∃ me fields authorization,
      (me, .answered (.validateAuthorization fields) (.ok (.valid authorization))) ∈ earlier ∧
        submission.recipient = authorization.address) trace

end ComptoMiningPool
