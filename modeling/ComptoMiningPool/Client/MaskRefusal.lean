import ComptoMiningPool.Async.Budget
import ComptoMiningPool.Client.Negotiation
import ComptoMiningPool.Client.Responses

/-
This file proves that a connection refuses the mask of a submit only for bits outside a mask that it has negotiated.
-/

namespace ComptoMiningPool

open JavaScript Async

/-- The thread has validated a submit whose mask exceeds a negotiated mask. -/
def RefusesMask (trace : ClientTrace) (me : ℕ) (id : Json) : Prop :=
  ∃ configuration fields message, ConfigurationValidated configuration trace ∧
    (me, .answered (.validateSubmit fields) (.ok (.valid message))) ∈ trace ∧ message.id = id ∧
      MaskExceeded configuration message

/-- The stored configuration was validated. -/
def StoredValidated (state : ClientState) (trace : ClientTrace) : Prop :=
  ∀ configuration, state.clientConfiguration = some configuration → ConfigurationValidated configuration trace

def maskContract (decoder : Decoder) : Contract ClientState ClientAnswer ClientTask where
  admits := clientAdmits decoder
  monitor trace me event := ∀ message, event = .issued (.writeSocket (invalidMaskLine message)) →
    RefusesMask trace me message.id
  rely _ _ := True
  invariant := StoredValidated

/-- The line refuses no mask apart from the mask of this request. -/
def Line.Refuses (id : Json) (line : Line) : Prop := ∀ message, line = invalidMaskLine message → message.id = id

/-- The call refuses no mask. -/
def ClientCall.Unmasked : ClientCall → Prop
  | .writeSocket line => ∀ message, line ≠ invalidMaskLine message
  | _ => True

/-- The call refuses no mask apart from the mask of this request. -/
def ClientCall.RefusesOnly (id : Json) : ClientCall → Prop
  | .writeSocket line => line.Refuses id
  | _ => True

theorem ClientCall.Silent.unmasked (request : ClientCall) (silent : request.Silent) : request.Unmasked := by
  cases request with
  | writeSocket line => exact silent.elim
  | _ => trivial

theorem unmasked_of_text {id : Json} {code : StratumErrorCode} {text : String} {errors : List Value}
    (different : text ≠ "Invalid version mask") :
    (ClientCall.writeSocket (.error id code text errors)).Unmasked := by
  intro message same
  exact different (Line.error.inj same).2.2.1

/-- A program of the frame keeps the configuration and refuses no mask. -/
abbrev UnmaskedProgram {V : Type} (program : ClientProgram V) : Prop :=
  (clientFrame SameConfiguration ClientCall.Unmasked).Covers program

section Rules

variable {decoder : Decoder} {me : ℕ} {V : Type} {state : ClientState} {trace : ClientTrace}

theorem RefusesMask.mono {before after : ClientTrace} {id : Json} (grows : before ⊆ after) :
    RefusesMask before me id → RefusesMask after me id := by
  rintro ⟨configuration, fields, message, validated, member, rest⟩
  exact ⟨configuration, fields, message, validated.mono grows, grows member, rest⟩

theorem StoredValidated.mono {after : ClientTrace} (grows : trace ⊆ after) (kept : StoredValidated state trace) :
    StoredValidated state after :=
  fun configuration held => (kept configuration held).mono grows

theorem StoredValidated.same {after : ClientState} (kept : StoredValidated state trace)
    (same : SameConfiguration state after) : StoredValidated after trace :=
  fun configuration held => kept configuration (same.symm.trans held)

theorem refuses_cons {id : Json} (holds : StoredValidated state trace ∧ RefusesMask trace me id)
    (event : ClientEvent) : StoredValidated state ((me, event) :: trace) ∧ RefusesMask ((me, event) :: trace) me id :=
  ⟨holds.1.mono (List.subset_cons_self _ _), holds.2.mono (List.subset_cons_self _ _)⟩

/-- A thread may refuse the mask of a request for which it has a reason. -/
theorem refusing_sound (decoder : Decoder) (me : ℕ) (id : Json) :
    (clientFrame SameConfiguration (ClientCall.RefusesOnly id)).Sound (maskContract decoder) me
      fun state trace => StoredValidated state trace ∧ RefusesMask trace me id where
  stable _ := trivial
  kept holds := holds.1
  called answer holds _ := ⟨fun _ same => (by cases same), refuses_cons holds _⟩
  issued := by
    intro state trace request holds allowed
    refine ⟨?_, refuses_cons holds _⟩
    intro message same
    cases same
    rw [allowed message rfl]
    exact holds.2
  answered request answer holds := ⟨fun _ same => (by cases same), refuses_cons holds _⟩
  resumed holds _ extension kept := ⟨kept, holds.2.mono extension.suffix.subset⟩
  stored holds same := ⟨trivial, holds.1.same same, holds.2⟩

theorem unmasked_sound (decoder : Decoder) (me : ℕ) :
    (clientFrame SameConfiguration ClientCall.Unmasked).Sound (maskContract decoder) me StoredValidated where
  stable _ := trivial
  kept kept := kept
  called answer kept _ := ⟨fun _ same => (by cases same), kept.mono (List.subset_cons_self _ _)⟩
  issued := by
    intro state trace request kept unmasked
    refine ⟨?_, kept.mono (List.subset_cons_self _ _)⟩
    intro message same
    cases same
    exact absurd rfl (unmasked message)
  answered request answer kept := ⟨fun _ same => (by cases same), kept.mono (List.subset_cons_self _ _)⟩
  resumed _ _ _ kept := kept
  stored kept same := ⟨trivial, kept.same same⟩

theorem wp_of_unmasked {program : ClientProgram V} (unmasked : UnmaskedProgram program)
    (kept : StoredValidated state trace) :
    wp (maskContract decoder) me program (fun _ => StoredValidated) state trace :=
  Frame.wp_of_holds (unmasked_sound decoder me) (unmasked state trivial) kept

theorem wp_unmasked_joined {program : ClientProgram V}
    (holds : wp (maskContract decoder) me program (fun _ => StoredValidated) state trace) :
    wp (maskContract decoder) me (program.joined .turn) (fun _ => StoredValidated) state trace :=
  have turns : ∀ state, (clientFrame SameConfiguration ClientCall.Unmasked).allowed state ClientCall.turn :=
    fun _ => trivial
  Frame.wp_joined_of_sound (fun _ => unmasked_sound decoder me) turns holds

/-- A program that keeps to the stores and to the calls of a frame keeps to the frame. -/
theorem holds_of_makes {keeps : ClientState → ClientState → Prop} {allowed : ClientCall → Prop}
    {program : ClientProgram V} (stores : (clientFrame keeps fun _ => True).Holds program state)
    (makes : Makes allowed program) : (clientFrame keeps allowed).Holds program state := by
  induction program generalizing state with
  | done value => trivial
  | failed error => trivial
  | read next ih => exact ih state stores (makes state)
  | store stored next ih => exact ⟨stores.1, ih stores.2 makes⟩
  | call request next ih => exact ⟨makes.1, fun answer => ih answer (stores.2 answer) (makes.2 answer)⟩
  | await request next ih =>
      exact ⟨makes.1, fun state' answer stable => ih answer (stores.2 state' answer stable) (makes.2 answer)⟩

end Rules

section Unmasked

theorem unmasked_of_silent {V : Type} {program : ClientProgram V} (stores : Keeps SameConfiguration program)
    (makes : Makes ClientCall.Silent program) : UnmaskedProgram program :=
  fun state stable =>
    holds_of_makes (stores state stable) (makes.mono fun request => ClientCall.Silent.unmasked request)

theorem unmasked_closes (request : ClientCall) (closes : request.ClosesSocket) : request.Unmasked := by
  cases request with
  | writeSocket line => exact closes.elim
  | _ => trivial

theorem unmasked_reply {line : Line} (unmasked : (ClientCall.writeSocket line).Unmasked) :
    UnmaskedProgram ((write line).joined ClientCall.turn) :=
  covers_reply sameConfiguration_of_ordinary unmasked_closes unmasked

theorem unmasked_endSocket : UnmaskedProgram endSocket := covers_endSocket sameConfiguration_of_ordinary unmasked_closes

theorem unmasked_validateMessage {M : Type} {validate : ClientProgram (Validated M)}
    (unmasked : UnmaskedProgram validate) : UnmaskedProgram ((validateMessage validate).joined .turn) := by
  apply Frame.Covers.joined _ fun _ => trivial
  apply covers_bind unmasked
  intro validated
  cases validated with
  | valid message => exact Frame.covers_done _
  | invalid id errors =>
      apply covers_bind _ fun _ => Frame.covers_done _
      exact unmasked_reply (unmasked_of_text (by decide))

theorem unmasked_handleSubscriptionMessage (fields : Fields) :
    UnmaskedProgram (handleSubscriptionMessage fields) := by
  have validates : UnmaskedProgram (validateSubscription fields) := covers_request trivial
  apply covers_bind (unmasked_validateMessage validates)
  intro validated
  cases validated with
  | error written => exact Frame.covers_done written
  | ok subscriptionMessage =>
      apply covers_bind
      · exact unmasked_of_silent (keeps_startSession sameConfiguration_of_store) silent_startSession
      · intro _
        apply covers_modify_bind
        · exact fun state => sameConfiguration_of_store state _ (.subscription subscriptionMessage)
        · apply Frame.covers_load
          exact fun state => unmasked_reply fun _ same => (by cases same)

theorem unmasked_handleAuthorizationMessage (fields : Fields) :
    UnmaskedProgram (handleAuthorizationMessage fields) := by
  have validates : UnmaskedProgram (validateAuthorization fields) := covers_request trivial
  apply covers_bind (unmasked_validateMessage validates)
  intro validated
  cases validated with
  | error written => exact Frame.covers_done written
  | ok authorizationMessage =>
      apply covers_modify_bind
      · exact fun state => sameConfiguration_of_ordinary state _ (.authorization authorizationMessage)
      · apply covers_perform_bind trivial
        exact fun _ => unmasked_reply fun _ same => (by cases same)

theorem unmasked_startWhenReady : UnmaskedProgram startWhenReady := by
  apply Frame.covers_load
  intro state
  split
  · apply Frame.Covers.joined _ fun _ => trivial
    apply covers_perform_bind trivial
    intro _
    apply Frame.covers_load
    intro state
    apply covers_assert_bind trivial
    intro _
    apply covers_assert_bind trivial
    intro _
    apply covers_modify_bind
    · exact fun state => sameConfiguration_of_ordinary state _ .initialized
    · apply covers_perform_bind trivial
      intro cluster
      apply covers_perform_bind trivial
      intro rawDifficulty
      apply covers_bind (unmasked_reply fun _ same => (by cases same))
      intro success
      split
      · exact Frame.covers_done ()
      · apply covers_perform_bind trivial
        exact fun _ => Frame.covers_modify fun state => sameConfiguration_of_ordinary state _ .jobs
  · exact Frame.covers_done ()

theorem unmasked_sendNewMiningJob (template : JobTemplate) : UnmaskedProgram (sendNewMiningJob template) := by
  apply covers_perform_bind trivial
  intro job
  cases built : job.response template with
  | error thrown =>
      unfold Program.ofExcept
      exact Frame.covers_failed thrown
  | ok line =>
      obtain ⟨params, rfl, _⟩ := MiningJob.response_ok built
      change UnmaskedProgram (((write _).joined .turn).bind fun _ => .done ())
      exact covers_bind (unmasked_reply fun _ same => (by cases same)) fun _ => Frame.covers_done ()

theorem unmasked_payMiner (submission : MiningSubmitMessage) (extraData : Bytes) (version : Number) :
    UnmaskedProgram (payMiner submission extraData version) := by
  apply covers_perform_bind trivial
  intro fee
  apply covers_assert_bind trivial
  intro _
  apply Frame.covers_load
  intro state
  split
  · exact Frame.covers_failed _
  · apply covers_awaiting_bind trivial
    intro answer
    apply covers_bind (Frame.covers_ofExcept answer)
    intro mintComptokensResult
    dsimp only
    split
    · split
      · apply covers_bind _ fun _ => Frame.covers_done _
        exact unmasked_reply (unmasked_of_text (by decide))
      · apply covers_bind _ fun _ => Frame.covers_done _
        exact unmasked_reply (unmasked_of_text (by decide))
    · exact Frame.covers_done _

end Unmasked

section Handlers

variable {decoder : Decoder} {me : ℕ} {V : Type} {state : ClientState} {trace : ClientTrace}

/-- An assertion refuses no mask. -/
theorem wp_assertsMask {asserted : Asserted} {condition : Bool} {text : String} {rest : Unit → ClientProgram V}
    (kept : StoredValidated state trace)
    (holds : wp (maskContract decoder) me (rest ()) (fun _ => StoredValidated) state
      ((me, .called (.assert asserted condition) ()) :: trace)) :
    wp (maskContract decoder) me ((assert asserted condition text).bind rest) (fun _ => StoredValidated) state
      trace := by
  intro _ _
  refine ⟨fun _ same => (by cases same), ?_⟩
  cases condition with
  | false => exact kept.mono (List.subset_cons_self _ _)
  | true => exact holds

/-- The mask of a validated submit is refused only when it exceeds the stored mask. -/
theorem wp_rollsMask {fields : Fields} {message : MiningSubmitMessage} (version : ℕ)
    (kept : StoredValidated state trace)
    (validated : (me, .answered (.validateSubmit fields) (.ok (.valid message))) ∈ trace) :
    wp (maskContract decoder) me (rollVersion message version) (fun _ => StoredValidated) state trace := by
  unfold rollVersion
  simp only [Program.bind_eq, Program.load, Program.bind]
  rw [wp]
  cases held : state.clientConfiguration with
  | none => exact kept
  | some configuration =>
      cases rolling : configuration.versionRolling with
      | false =>
          simp only [rolling]
          exact kept
      | true =>
          simp only [rolling, if_true]
          apply wp_assertsMask kept
          have kept' := kept.mono (List.subset_cons_self
            (me, .called (.assert .versionMask (hasValue message.versionMask)) ()) trace)
          split
          · rename_i exceeded
            have refuses : RefusesMask ((me, .called (.assert .versionMask (hasValue message.versionMask)) ()) :: trace)
                me message.id :=
              ⟨configuration, fields, message, kept' configuration held, List.mem_cons_of_mem _ validated, rfl,
                exceeded⟩
            have closes : ∀ request : ClientCall, request.ClosesSocket → request.RefusesOnly message.id := by
              intro request closes
              cases request with
              | writeSocket line => exact closes.elim
              | _ => trivial
            have replies : (clientFrame SameConfiguration (ClientCall.RefusesOnly message.id)).Covers
                ((write (.error message.id .otherUnknown "Invalid version mask" [])).joined ClientCall.turn) :=
              covers_reply sameConfiguration_of_ordinary closes fun _ same => (Line.error.inj same).1.symm
            rw [wp_bind]
            apply wp_mono _ (Frame.wp_of_holds (refusing_sound decoder me message.id) (replies state trivial)
              ⟨kept', refuses⟩)
            intro result state trace holds
            cases result with
            | error thrown => exact holds.1
            | ok written => exact holds.1
          · exact kept'

theorem wp_sharesMask (sha256 : Bytes → Bytes) {fields : Fields} {message : MiningSubmitMessage}
    (jobTemplate : JobTemplate) (kept : StoredValidated state trace)
    (validated : (me, .answered (.validateSubmit fields) (.ok (.valid message))) ∈ trace) :
    wp (maskContract decoder) me (submitShare sha256 message jobTemplate) (fun _ => StoredValidated) state trace := by
  unfold submitShare
  simp only [Program.bind_eq, Program.load, Program.bind]
  change wp _ me (Program.bind (rollVersion _ _) _) _ state trace
  rw [wp_bind]
  apply wp_mono _ (wp_rollsMask _ kept validated)
  intro result state trace kept
  cases result with
  | error thrown => exact kept
  | ok outcome =>
      cases outcome with
      | error written => exact kept
      | ok version => exact wp_of_unmasked (unmasked_payMiner message _ version) kept

theorem wp_minesMask (sha256 : Bytes → Bytes) {fields : Fields} {message : MiningSubmitMessage}
    (kept : StoredValidated state trace)
    (validated : (me, .answered (.validateSubmit fields) (.ok (.valid message))) ∈ trace) :
    wp (maskContract decoder) me (handleMiningSubmission sha256 message) (fun _ => StoredValidated) state trace := by
  unfold handleMiningSubmission
  simp only [Program.bind_eq, Program.load, Program.bind]
  change wp _ me (Program.bind (assert _ _ _) _) _ state trace
  apply wp_assertsMask kept
  have awaits : UnmaskedProgram awaitEntity :=
    unmasked_of_silent (keeps_awaitEntity sameConfiguration_of_store) silent_awaitEntity
  -- The answer of the validation stays in the trace while the thread waits for the entity.
  have remembered : (clientFrame SameConfiguration ClientCall.Unmasked).Sound (maskContract decoder) me
      fun state trace => StoredValidated state trace ∧
        (me, .answered (.validateSubmit fields) (.ok (.valid message))) ∈ trace :=
    (unmasked_sound decoder me).and_mono fun _ _ grows member => grows member
  rw [wp_bind]
  apply wp_mono _ (Frame.wp_of_holds remembered (awaits state trivial)
    ⟨kept.mono (List.subset_cons_self _ _), List.mem_cons_of_mem _ validated⟩)
  rintro result state trace ⟨kept, validated⟩
  cases result with
  | error thrown => exact kept
  | ok done =>
      intro job _
      refine ⟨fun _ same => (by cases same), ?_⟩
      have kept' := kept.mono (List.subset_cons_self (me, .called (.getJobById message.jobId) job) trace)
      cases job with
      | none =>
          have replies : UnmaskedProgram
              ((write (.error message.id .jobNotFound "Job not found" [])).joined ClientCall.turn) :=
            unmasked_reply (unmasked_of_text (by decide))
          change wp _ me (Program.bind ((write _).joined .turn) fun _ => .done false) _ state _
          exact wp_of_unmasked (covers_bind replies fun _ => Frame.covers_done false) kept'
      | some job =>
          intro jobTemplate _
          refine ⟨fun _ same => (by cases same), ?_⟩
          have kept' := kept'.mono (List.subset_cons_self
            (me, .called (.getJobTemplateById (jobTemplateIdOf job)) jobTemplate) _)
          change wp _ me (Program.bind (assert _ _ _) _) _ state _
          apply wp_assertsMask kept'
          have kept' := kept'.mono (List.subset_cons_self
            (me, .called (.assert .jobTemplate jobTemplate.isSome) ()) _)
          cases jobTemplate with
          | none => exact kept'
          | some entry =>
              cases entry with
              | inherited => exact kept'
              | own jobTemplate =>
                  apply wp_sharesMask sha256 jobTemplate kept'
                  exact List.mem_cons_of_mem _ (List.mem_cons_of_mem _ (List.mem_cons_of_mem _ validated))

/-- A validated message leaves the answer of its validation in the trace. -/
theorem wp_validatesMask {M : Type} (request : ClientCall)
    (result : ClientAnswer request → Except Thrown (Validated M)) (unmasked : request.Unmasked)
    (kept : StoredValidated state trace) :
    wp (maskContract decoder) me
      ((validateMessage ((Program.awaiting request).bind fun answer => .ofExcept (result answer))).joined .turn)
      (fun outcome state trace => StoredValidated state trace ∧ ∀ message, outcome = .ok (.ok message) →
        ∃ answer, result answer = .ok (.valid message) ∧ (me, .answered request answer) ∈ trace) state trace := by
  have sound := unmasked_sound decoder me
  have recorded : ∀ outcome : Except Thrown (Except Bool M),
      (clientFrame SameConfiguration ClientCall.Unmasked).Sound (maskContract decoder) me fun state trace =>
        StoredValidated state trace ∧ ∀ message, outcome = .ok (.ok message) →
          ∃ answer, result answer = .ok (.valid message) ∧ (me, .answered request answer) ∈ trace := by
    intro outcome
    apply sound.and_mono
    intro before after grows holds message accepted
    obtain ⟨answer, valid, member⟩ := holds message accepted
    exact ⟨answer, valid, grows member⟩
  have turns : ∀ state, (clientFrame SameConfiguration ClientCall.Unmasked).allowed state ClientCall.turn :=
    fun _ => trivial
  apply Frame.wp_joined_of_sound recorded turns
  have issued := sound.issued kept unmasked
  refine ⟨issued.1, issued.2, ?_⟩
  intro state' trace' relied extension kept' answer admitted
  have answered := sound.answered request answer kept'
  refine ⟨answered.1, ?_⟩
  change wp _ me ((Program.ofExcept (result answer)).bind _) _ state' _
  cases validated : result answer with
  | error thrown => exact ⟨answered.2, fun _ impossible => (by cases impossible)⟩
  | ok decoded =>
      cases decoded with
      | valid message =>
          refine ⟨answered.2, ?_⟩
          intro other same
          cases same
          exact ⟨answer, validated, List.mem_cons_self⟩
      | invalid id errors =>
          change wp _ me (((write _).joined .turn).bind fun written => .done (Except.error written)) _ state' _
          rw [wp_bind]
          apply wp_mono _ (wp_of_unmasked (unmasked_reply (unmasked_of_text (by decide))) answered.2)
          intro written state trace kept
          cases written with
          | ok written => exact ⟨kept, fun _ impossible => (by cases impossible)⟩
          | error thrown => exact ⟨kept, fun _ impossible => (by cases impossible)⟩

theorem wp_submitsMask (sha256 : Bytes → Bytes) (fields : Fields) (kept : StoredValidated state trace) :
    wp (maskContract decoder) me (handleSubmitMessage sha256 fields) (fun _ => StoredValidated) state trace := by
  unfold handleSubmitMessage
  rw [Program.bind_eq, wp_bind]
  apply wp_mono _ (wp_validatesMask (.validateSubmit fields) id trivial kept)
  rintro outcome state trace ⟨kept, validated⟩
  cases outcome with
  | error thrown => exact kept
  | ok decoded =>
      cases decoded with
      | error written => exact kept
      | ok message =>
          obtain ⟨answer, rfl, member⟩ := validated message rfl
          change wp _ me (if _ then _ else _) _ state trace
          split
          · apply wp_of_unmasked _ kept
            apply covers_bind _ fun _ => Frame.covers_done false
            apply unmasked_reply
            apply unmasked_of_text
            split
            · decide
            · decide
          · rw [Program.bind_eq, wp_bind]
            apply wp_mono _ (wp_unmasked_joined (wp_minesMask sha256 kept member))
            intro result state trace kept
            cases result with
            | error thrown => exact kept
            | ok success =>
                cases success with
                | false => exact kept
                | true => exact wp_of_unmasked (unmasked_reply fun _ same => (by cases same)) kept

theorem wp_configuresMask (fields : Fields) (kept : StoredValidated state trace) :
    wp (maskContract decoder) me (handleConfigureMessage fields) (fun _ => StoredValidated) state trace := by
  unfold handleConfigureMessage
  rw [Program.bind_eq, wp_bind]
  apply wp_mono _ (wp_validatesMask (.validateConfiguration fields) id trivial kept)
  rintro outcome state trace ⟨kept, validated⟩
  cases outcome with
  | error thrown => exact kept
  | ok decoded =>
      cases decoded with
      | error written => exact kept
      | ok message =>
          obtain ⟨answer, rfl, member⟩ := validated message rfl
          refine ⟨trivial, ?_⟩
          have stored : StoredValidated { state with clientConfiguration := some message } trace := by
            intro configuration held
            cases held
            exact ⟨me, fields, member⟩
          exact wp_of_unmasked (unmasked_reply fun _ same => (by cases same)) stored

theorem wp_dispatchesMask (sha256 : Bytes → Bytes) (method : Option RequestMethod) (fields : Fields)
    (kept : StoredValidated state trace) :
    wp (maskContract decoder) me (dispatch sha256 method fields) (fun _ => StoredValidated) state trace := by
  cases method with
  | none => exact kept
  | some method =>
      cases method with
      | suggestDifficulty => exact kept
      | configure => exact wp_unmasked_joined (wp_configuresMask fields kept)
      | subscribe =>
          exact wp_unmasked_joined (wp_of_unmasked (unmasked_handleSubscriptionMessage fields) kept)
      | authorize =>
          exact wp_unmasked_joined (wp_of_unmasked (unmasked_handleAuthorizationMessage fields) kept)
      | submit =>
          change wp _ me (if !state.stratumInitialized then _ else _) _ state trace
          split
          · exact wp_of_unmasked (covers_bind unmasked_endSocket fun _ => Frame.covers_done false) kept
          · exact wp_unmasked_joined (wp_submitsMask sha256 fields kept)

theorem wp_handlesMask (sha256 : Bytes → Bytes) (line : Option Json) (kept : StoredValidated state trace) :
    wp (maskContract decoder) me (handleMessage sha256 line) (fun _ => StoredValidated) state trace := by
  cases line with
  | none => exact wp_of_unmasked unmasked_endSocket kept
  | some parsedMessage =>
      change wp _ me ((Program.ofExcept (Value.field (some parsedMessage) "method")).bind _) _ state trace
      cases Value.field (some parsedMessage) "method" with
      | error thrown => exact kept
      | ok method =>
          change wp _ me ((dispatch sha256 _ _).bind _) _ state trace
          rw [wp_bind]
          apply wp_mono _ (wp_dispatchesMask sha256 _ _ kept)
          intro result state trace kept
          cases result with
          | error thrown => exact kept
          | ok success =>
              cases success with
              | false => exact kept
              | true => exact wp_of_unmasked unmasked_startWhenReady kept

theorem wp_guardsMask {program : ClientProgram Unit}
    (holds : wp (maskContract decoder) me program (fun _ => StoredValidated) state trace) :
    wp (maskContract decoder) me (guarded program) (fun _ => StoredValidated) state trace := by
  unfold guarded
  rw [wp_attempt]
  apply wp_mono _ (wp_unmasked_joined holds)
  intro result state trace kept
  cases result with
  | ok done => exact kept
  | error thrown => exact wp_of_unmasked unmasked_endSocket kept

end Handlers

theorem maskContract_proved (sha256 : Bytes → Bytes) (decoder : Decoder) :
    (maskContract decoder).Proved (clientSemantics sha256 decoder) {} where
  sameAnswers := rfl
  relyRefl _ := trivial
  relyTrans _ _ _ _ _ := trivial
  initially := fun _ impossible => (by cases impossible)
  starts := by
    intro state trace me task kept _ _
    have started : StoredValidated state ((me, .started task) :: trace) := kept.mono (List.subset_cons_self _ _)
    refine ⟨fun _ impossible => (by cases impossible), ?_⟩
    cases task with
    | line message => exact wp_guardsMask (wp_handlesMask sha256 message started)
    | destroy =>
        exact wp_of_unmasked (unmasked_of_silent keeps_destroy silent_destroy) started
    | newMiningJob template => exact wp_guardsMask (wp_of_unmasked (unmasked_sendNewMiningJob template) started)
  disturbed := by
    rintro state state' trace kept ⟨destroyed, writableEnded, rfl⟩
    exact ⟨trivial, kept⟩

/-- A thread refuses the mask of its own submit only when the mask exceeds a negotiated one. -/
theorem Reachable.refusesMask {sha256 : Bytes → Bytes} {decoder : Decoder}
    {system : System ClientState ClientAnswer Thrown Unit ClientTask}
    (reached : Reachable (clientSemantics sha256 decoder) {} system) {me : ℕ} {message : MiningSubmitMessage}
    (written : (me, .issued (.writeSocket (invalidMaskLine message))) ∈ system.trace) :
    RefusesMask system.trace me message.id := by
  have accepted := ((maskContract_proved sha256 decoder).reachable reached).2
  obtain ⟨earlier, grows, refuses⟩ := accepted.of_mem written
  exact (refuses message rfl).mono grows

end ComptoMiningPool
