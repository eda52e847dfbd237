import ComptoMiningPool.Client.StratumV1Client
import ComptoMiningPool.Async.Sequential

/-
This file says once what the programs of a connection store. Its lemmas cover every program but the
handler of a configure request, which stores its message as well.
-/

namespace ComptoMiningPool

open JavaScript Async

/-- The stores of a connection apart from its configuration. -/
inductive ClientStore (state : ClientState) : ClientState → Prop where
  | ended : ClientStore state { state with writableEnded := true }
  | destroyed : ClientStore state { state with destroyed := true }
  | sessionStart (milliseconds : ℕ) : ClientStore state { state with sessionStart := some milliseconds }
  | session (randomNumber : BitVec 32) :
      ClientStore state { state with extraNonceAndSessionId := some (getRandomHexString randomNumber) }
  | subscription (message : SubscriptionMessage) :
      ClientStore state { state with clientSubscription := some message }
  | authorization (message : AuthorizationMessage) :
      ClientStore state { state with clientAuthorization := some message }
  | creatingEntity (promise : EntityPromise) :
      ClientStore state { state with creatingEntity := some promise }
  | entity : ClientStore state { state with entity := true }
  | initialized : ClientStore state { state with stratumInitialized := true }
  | jobs : ClientStore state { state with stratumSubscription := true }

/-- The stores that leave the session, the entity, and the configuration alone. -/
inductive OrdinaryStore (state : ClientState) : ClientState → Prop where
  | ended : OrdinaryStore state { state with writableEnded := true }
  | destroyed : OrdinaryStore state { state with destroyed := true }
  | authorization (message : AuthorizationMessage) :
      OrdinaryStore state { state with clientAuthorization := some message }
  | initialized : OrdinaryStore state { state with stratumInitialized := true }
  | jobs : OrdinaryStore state { state with stratumSubscription := true }

theorem OrdinaryStore.client {state after : ClientState} (store : OrdinaryStore state after) :
    ClientStore state after := by
  cases store with
  | ended => exact .ended
  | destroyed => exact .destroyed
  | authorization message => exact .authorization message
  | initialized => exact .initialized
  | jobs => exact .jobs

/-- The calls that a write makes. -/
def ClientCall.OfSocket : ClientCall → Prop
  | .writeSocket _ => True
  | .endSocket => True
  | .destroySocket => True
  | .startDestroy => True
  | .turn => True
  | _ => False

/-- The calls that a write makes apart from its line. -/
def ClientCall.ClosesSocket : ClientCall → Prop
  | .endSocket => True
  | .destroySocket => True
  | .startDestroy => True
  | .turn => True
  | _ => False

/-- The calls apart from those of a submission and those that make or use the session id. -/
def ClientCall.Ordinary : ClientCall → Prop
  | .validateSubmit _ => False
  | .writeSocket (.response _ (.array _)) => False
  | .randomBytes => False
  | .insertClient _ => False
  | .deleteClient _ => False
  | .getJobById _ => False
  | .getJobTemplateById _ => False
  | .submitProof _ => False
  | .assert .jobTemplate _ => False
  | _ => True

theorem ClientCall.ClosesSocket.ofSocket {request : ClientCall} (closes : request.ClosesSocket) :
    request.OfSocket := by
  cases request with
  | endSocket => trivial
  | destroySocket => trivial
  | startDestroy => trivial
  | turn => trivial
  | _ => exact closes.elim

theorem ClientCall.ClosesSocket.ordinary {request : ClientCall} (closes : request.ClosesSocket) :
    request.Ordinary := by
  cases request with
  | endSocket => trivial
  | destroySocket => trivial
  | startDestroy => trivial
  | turn => trivial
  | _ => exact closes.elim

/-- A frame that speaks about the stores and the calls of a program alone. -/
def clientFrame (keeps : ClientState → ClientState → Prop) (allowed : ClientCall → Prop) :
    Frame ClientState ClientCall where
  stable _ := True
  allowed _ request := allowed request
  keeps := keeps

section Frame

variable {keeps : ClientState → ClientState → Prop} {allowed : ClientCall → Prop}

theorem clientFrame_closed : (clientFrame keeps allowed).Closed := fun _ _ _ _ => trivial

section Rules

variable {V W : Type}

theorem covers_bind {program : ClientProgram V} {rest : V → ClientProgram W}
    (first : (clientFrame keeps allowed).Covers program)
    (second : ∀ value, (clientFrame keeps allowed).Covers (rest value)) :
    (clientFrame keeps allowed).Covers (program.bind rest) :=
  first.bind clientFrame_closed second

/-- A store of the frame comes before the rest. -/
theorem covers_modify_bind {update : ClientState → ClientState} {rest : Unit → ClientProgram W}
    (kept : ∀ state, keeps state (update state))
    (second : (clientFrame keeps allowed).Covers (rest ())) :
    (clientFrame keeps allowed).Covers ((Program.modify update).bind rest) :=
  covers_bind (Frame.covers_modify kept) fun _ => second

theorem covers_perform_bind {request : ClientCall} {rest : ClientAnswer request → ClientProgram W}
    (allows : allowed request) (second : ∀ answer, (clientFrame keeps allowed).Covers (rest answer)) :
    (clientFrame keeps allowed).Covers ((Program.perform request).bind rest) :=
  covers_bind (Frame.covers_perform fun _ => allows) second

theorem covers_awaiting_bind {request : ClientCall} {rest : ClientAnswer request → ClientProgram W}
    (allows : allowed request) (second : ∀ answer, (clientFrame keeps allowed).Covers (rest answer)) :
    (clientFrame keeps allowed).Covers ((Program.awaiting request).bind rest) :=
  covers_bind (Frame.covers_awaiting fun _ => allows) second

theorem covers_assert_bind {asserted : Asserted} {condition : Bool} {message : String}
    {rest : Unit → ClientProgram W} (allows : allowed (.assert asserted condition))
    (second : ∀ value, (clientFrame keeps allowed).Covers (rest value)) :
    (clientFrame keeps allowed).Covers ((assert asserted condition message).bind rest) := by
  apply covers_bind _ second
  apply covers_perform_bind allows
  intro _
  cases condition
  · exact Frame.covers_failed _
  · exact Frame.covers_done ()

end Rules

/-- One call that answers with a result or throws stores nothing. -/
theorem covers_request {V : Type} {request : ClientCall}
    {result : ClientAnswer request → Except Thrown V} (allows : allowed request) :
    (clientFrame keeps allowed).Covers
      ((Program.awaiting request).bind fun answer => .ofExcept (result answer)) :=
  covers_awaiting_bind allows fun answer => Frame.covers_ofExcept (result answer)

section Socket

variable (stores : ∀ state after, OrdinaryStore state after → keeps state after)
  (closes : ∀ request : ClientCall, request.ClosesSocket → allowed request)
include stores closes

theorem covers_endSocket : (clientFrame keeps allowed).Covers endSocket := by
  apply covers_perform_bind (closes .endSocket trivial)
  intro _
  apply covers_modify_bind
  · exact fun state => stores state _ .ended
  · exact Frame.covers_awaiting fun _ => closes .turn trivial

theorem covers_destroySocket : (clientFrame keeps allowed).Covers destroySocket := by
  apply covers_perform_bind (closes .destroySocket trivial)
  intro _
  exact Frame.covers_modify fun state => stores state _ .destroyed

theorem covers_writeToClosed : (clientFrame keeps allowed).Covers writeToClosed := by
  apply covers_perform_bind (closes .startDestroy trivial)
  intro _
  apply Frame.covers_load
  intro state
  split
  · exact covers_bind (covers_destroySocket stores closes) fun _ => Frame.covers_done false
  · exact Frame.covers_done false

theorem covers_writeFailed : (clientFrame keeps allowed).Covers writeFailed := by
  apply covers_perform_bind (closes .startDestroy trivial)
  intro _
  apply Frame.covers_load
  intro state
  split
  · exact covers_bind (covers_endSocket stores closes) fun _ => Frame.covers_done false
  · split
    · exact covers_bind (covers_destroySocket stores closes) fun _ => Frame.covers_done false
    · exact Frame.covers_done false

theorem covers_write {line : Line} (allows : allowed (.writeSocket line)) :
    (clientFrame keeps allowed).Covers (write line) := by
  apply Frame.Covers.attempt clientFrame_closed _ fun _ => covers_writeFailed stores closes
  apply Frame.covers_load
  intro state
  split
  · apply covers_awaiting_bind allows
    intro answer
    exact covers_bind (Frame.covers_ofExcept answer) fun _ => Frame.covers_done true
  · exact covers_writeToClosed stores closes

theorem covers_reply {line : Line} (allows : allowed (.writeSocket line)) :
    (clientFrame keeps allowed).Covers ((write line).joined ClientCall.turn) :=
  (covers_write stores closes allows).joined fun _ => closes .turn trivial

end Socket

section Ordinary

variable (stores : ∀ state after, OrdinaryStore state after → keeps state after)
  (ordinary : ∀ request : ClientCall, request.Ordinary → allowed request)
include stores ordinary

/-- A line apart from the response to a subscription is written with ordinary calls. -/
theorem covers_answer {line : Line} (plain : (ClientCall.writeSocket line).Ordinary) :
    (clientFrame keeps allowed).Covers ((write line).joined ClientCall.turn) :=
  covers_reply stores (fun request closes => ordinary request closes.ordinary) (ordinary _ plain)

theorem covers_ended : (clientFrame keeps allowed).Covers endSocket :=
  covers_endSocket stores fun request closes => ordinary request closes.ordinary

theorem covers_validateMessage {M : Type} {validate : ClientProgram (Validated M)}
    (covers : (clientFrame keeps allowed).Covers validate) :
    (clientFrame keeps allowed).Covers (validateMessage validate) := by
  apply covers_bind covers
  intro validated
  cases validated with
  | valid message => exact Frame.covers_done _
  | invalid id errors =>
      exact covers_bind (covers_answer stores ordinary trivial) fun _ => Frame.covers_done _

theorem covers_handleAuthorizationMessage (fields : Fields) :
    (clientFrame keeps allowed).Covers (handleAuthorizationMessage fields) := by
  have validates : (clientFrame keeps allowed).Covers (validateAuthorization fields) :=
    covers_request (ordinary _ trivial)
  apply covers_bind ((covers_validateMessage stores ordinary validates).joined fun _ => ordinary .turn trivial)
  intro validated
  cases validated with
  | error written => exact Frame.covers_done written
  | ok authorizationMessage =>
      apply covers_modify_bind
      · exact fun state => stores state _ (.authorization authorizationMessage)
      · apply covers_perform_bind (ordinary (.authorized authorizationMessage) trivial)
        exact fun _ => covers_answer stores ordinary trivial

theorem covers_startWhenReady : (clientFrame keeps allowed).Covers startWhenReady := by
  apply Frame.covers_load
  intro state
  split
  · apply Frame.Covers.joined _ fun _ => ordinary .turn trivial
    apply covers_perform_bind (ordinary .initializing trivial)
    intro _
    apply Frame.covers_load
    intro state
    apply covers_assert_bind (ordinary (.assert .clientSubscription _) trivial)
    intro _
    apply covers_assert_bind (ordinary (.assert .clientAuthorization _) trivial)
    intro _
    apply covers_modify_bind
    · exact fun state => stores state _ .initialized
    · apply covers_perform_bind (ordinary (.configText _ _) trivial)
      intro cluster
      apply covers_perform_bind (ordinary (.configNumber _ _) trivial)
      intro rawDifficulty
      apply covers_bind (@covers_answer _ _ stores ordinary (.setDifficulty _) trivial)
      intro success
      split
      · exact Frame.covers_done ()
      · apply covers_perform_bind (ordinary .subscribeNewMiningJob trivial)
        exact fun _ => Frame.covers_modify fun state => stores state _ .jobs
  · exact Frame.covers_done ()

theorem covers_continue (success : Bool) :
    (clientFrame keeps allowed).Covers (if !success then pure () else startWhenReady) := by
  cases success
  · exact Frame.covers_done ()
  · exact covers_startWhenReady stores ordinary

theorem covers_guarded {program : ClientProgram Unit}
    (covers : (clientFrame keeps allowed).Covers program) :
    (clientFrame keeps allowed).Covers (guarded program) :=
  Frame.Covers.attempt clientFrame_closed (covers.joined fun _ => ordinary .turn trivial) fun _ =>
    covers_ended stores ordinary

theorem covers_sendNewMiningJob (template : JobTemplate) :
    (clientFrame keeps allowed).Covers (sendNewMiningJob template) := by
  apply covers_perform_bind (ordinary (.addJob template) trivial)
  intro job
  cases built : job.response template with
  | error thrown =>
      unfold Program.ofExcept
      exact Frame.covers_failed thrown
  | ok line =>
      have plain : (ClientCall.writeSocket line).Ordinary := by
        obtain ⟨params, rfl, _⟩ := MiningJob.response_ok built
        trivial
      show (clientFrame keeps allowed).Covers (((write line).joined .turn).bind fun _ => .done ())
      exact covers_bind (covers_answer stores ordinary plain) fun _ => Frame.covers_done ()

end Ordinary

end Frame

section Handlers

/-- The program makes stores of the frame only, whatever it calls. -/
abbrev Keeps {V : Type} (keeps : ClientState → ClientState → Prop) (program : ClientProgram V) : Prop :=
  (clientFrame keeps fun _ => True).Covers program

variable {keeps : ClientState → ClientState → Prop}

theorem anyCall : ∀ request : ClientCall, request.Ordinary → True := fun _ _ => trivial

theorem Keeps.joined {V : Type} {program : ClientProgram V}
    (kept : Keeps keeps program) : Keeps keeps (program.joined .turn) :=
  Frame.Covers.joined kept fun _ => trivial

theorem keeps_destroy : Keeps keeps destroy := by
  have unsubscribes : Keeps keeps (Program.load.bind fun state =>
      if state.stratumSubscription then Program.perform ClientCall.unsubscribe else .done ()) := by
    apply Frame.covers_load
    intro state
    split
    · exact Frame.covers_perform fun _ => trivial
    · exact Frame.covers_done ()
  apply Frame.covers_load
  intro state
  cases state.extraNonceAndSessionId with
  | none => exact unsubscribes
  | some sessionId =>
      apply covers_awaiting_bind trivial
      intro deleted
      exact covers_bind (Frame.covers_ofExcept deleted) fun _ => unsubscribes

/-- Only an object has a method that is a configure request. -/
theorem method_eq_configure {parsedMessage : Json} {method : Value}
    (found : Value.field (some parsedMessage) "method" = .ok method)
    (configure : RequestMethod.ofValue method = some .configure) : ∃ fields,
      parsedMessage = .object fields ∧ RequestMethod.ofValue (fields.lookup "method") = some .configure := by
  cases parsedMessage with
  | null => cases found
  | object fields =>
      obtain rfl := Except.ok.inj found
      exact ⟨fields, rfl, configure⟩
  | bool value =>
      obtain rfl := Except.ok.inj found
      exact absurd configure (by decide)
  | number value =>
      obtain rfl := Except.ok.inj found
      exact absurd configure (by decide)
  | string text =>
      obtain rfl := Except.ok.inj found
      exact absurd configure (by decide)
  | array elements =>
      obtain rfl := Except.ok.inj found
      exact absurd configure (by decide)

variable (stores : ∀ state after, ClientStore state after → keeps state after)
include stores

theorem keeps_ordinary (state after : ClientState) (store : OrdinaryStore state after) : keeps state after :=
  stores state after store.client

theorem keeps_answer (line : Line) : Keeps keeps ((write line).joined ClientCall.turn) :=
  covers_reply (keeps_ordinary stores) (fun _ _ => trivial) trivial

theorem keeps_startSession : Keeps keeps startSession := by
  apply Frame.covers_load
  intro state
  split
  · apply covers_perform_bind trivial
    intro sessionStart
    apply covers_modify_bind
    · exact fun state => stores state _ (.sessionStart sessionStart)
    · apply covers_perform_bind trivial
      exact fun randomNumber => Frame.covers_modify fun state => stores state _ (.session randomNumber)
  · exact Frame.covers_done ()

theorem keeps_handleSubscriptionMessage (fields : Fields) :
    Keeps keeps (handleSubscriptionMessage fields) := by
  have validates : Keeps keeps (validateSubscription fields) :=
    covers_request trivial
  apply covers_bind (Keeps.joined (covers_validateMessage (keeps_ordinary stores) anyCall validates))
  intro validated
  cases validated with
  | error written => exact Frame.covers_done written
  | ok subscriptionMessage =>
      apply covers_bind (keeps_startSession stores)
      intro _
      apply covers_modify_bind
      · exact fun state => stores state _ (.subscription subscriptionMessage)
      · apply Frame.covers_load
        exact fun state => keeps_answer stores _

theorem keeps_createEntity : Keeps keeps createEntity := by
  apply Frame.covers_load
  intro state
  apply covers_assert_bind trivial
  intro _
  apply covers_assert_bind trivial
  intro _
  apply covers_assert_bind trivial
  intro _
  apply covers_perform_bind trivial
  intro startTime
  apply covers_awaiting_bind trivial
  intro inserted
  apply covers_bind (Frame.covers_ofExcept inserted)
  exact fun _ => Frame.covers_modify fun state => stores state _ .entity

theorem keeps_awaitEntity : Keeps keeps awaitEntity := by
  apply Frame.covers_load
  intro state
  split
  · exact Frame.covers_done ()
  · split
    · apply covers_modify_bind
      · exact fun state => stores state _ (.creatingEntity .pending)
      · apply covers_bind
        · apply Frame.Covers.attempt clientFrame_closed
          · exact covers_bind (keeps_createEntity stores) fun _ => Frame.covers_done _
          · exact fun thrown => Frame.covers_done _
        · intro result
          apply covers_modify_bind
          · exact fun state => stores state _ (.creatingEntity (.settled result))
          · apply covers_awaiting_bind trivial
            exact fun _ => Frame.covers_ofExcept result
    · exact covers_request trivial

theorem keeps_rollVersion (submission : MiningSubmitMessage) (version : ℕ) :
    Keeps keeps (rollVersion submission version) := by
  apply Frame.covers_load
  intro state
  split
  · exact Frame.covers_done _
  · split
    · apply covers_assert_bind trivial
      intro _
      dsimp only
      split
      · exact covers_bind (keeps_answer stores _) fun _ => Frame.covers_done _
      · exact Frame.covers_done _
    · exact Frame.covers_done _

theorem keeps_payMiner (submission : MiningSubmitMessage) (extraData : Bytes) (version : Number) :
    Keeps keeps (payMiner submission extraData version) := by
  apply covers_perform_bind trivial
  intro fee
  apply covers_assert_bind trivial
  intro _
  apply Frame.covers_load
  intro state
  split
  · exact Frame.covers_failed _
  · apply covers_awaiting_bind trivial
    intro answer
    apply covers_bind (Frame.covers_ofExcept answer)
    intro mintComptokensResult
    dsimp only
    split
    · split
      · exact covers_bind (keeps_answer stores _) fun _ => Frame.covers_done _
      · exact covers_bind (keeps_answer stores _) fun _ => Frame.covers_done _
    · exact Frame.covers_done _

theorem keeps_submitShare (sha256 : Bytes → Bytes) (submission : MiningSubmitMessage)
    (jobTemplate : JobTemplate) : Keeps keeps (submitShare sha256 submission jobTemplate) := by
  apply Frame.covers_load
  intro state
  apply covers_bind (keeps_rollVersion stores submission _)
  intro version
  cases version with
  | error written => exact Frame.covers_done written
  | ok version => exact keeps_payMiner stores submission _ version

theorem keeps_handleMiningSubmission (sha256 : Bytes → Bytes) (submission : MiningSubmitMessage) :
    Keeps keeps (handleMiningSubmission sha256 submission) := by
  apply Frame.covers_load
  intro state
  apply covers_assert_bind trivial
  intro _
  apply covers_bind (keeps_awaitEntity stores)
  intro _
  apply covers_perform_bind trivial
  intro job
  split
  · exact covers_bind (keeps_answer stores _) fun _ => Frame.covers_done _
  · apply covers_perform_bind trivial
    intro jobTemplate
    apply covers_assert_bind trivial
    intro _
    split
    · exact keeps_submitShare stores sha256 submission _
    · exact Frame.covers_failed _

theorem keeps_handleSubmitMessage (sha256 : Bytes → Bytes) (fields : Fields) :
    Keeps keeps (handleSubmitMessage sha256 fields) := by
  have validates : Keeps keeps (validateSubmit fields) :=
    covers_request trivial
  apply covers_bind (Keeps.joined (covers_validateMessage (keeps_ordinary stores) anyCall validates))
  intro validated
  cases validated with
  | error written => exact Frame.covers_done written
  | ok miningSubmitMessage =>
      apply Frame.covers_load
      intro state
      split
      · exact covers_bind (keeps_answer stores _) fun _ => Frame.covers_done _
      · apply covers_bind (keeps_handleMiningSubmission stores sha256 miningSubmitMessage).joined
        intro result
        split
        · exact Frame.covers_done _
        · exact keeps_answer stores _

/-- A handler of a configure request stores its message. -/
theorem keeps_handleConfigureMessage (configures : ∀ state message,
    keeps state { state with clientConfiguration := some message }) (fields : Fields) :
    Keeps keeps (handleConfigureMessage fields) := by
  have validates : Keeps keeps (validateConfiguration fields) :=
    covers_request trivial
  apply covers_bind (Keeps.joined (covers_validateMessage (keeps_ordinary stores) anyCall validates))
  intro validated
  cases validated with
  | error written => exact Frame.covers_done written
  | ok configurationMessage =>
      apply covers_modify_bind
      · exact fun state => configures state configurationMessage
      · exact keeps_answer stores _

/-- A message keeps to the frame when its configure handler does. -/
theorem keeps_dispatch (sha256 : Bytes → Bytes) {method : Option RequestMethod} (fields : Fields)
    (configure : method = some .configure → Keeps keeps (handleConfigureMessage fields)) :
    Keeps keeps (dispatch sha256 method fields) := by
  cases method with
  | none => exact Frame.covers_done true
  | some method =>
      cases method with
      | configure => exact (configure rfl).joined
      | subscribe => exact (keeps_handleSubscriptionMessage stores fields).joined
      | authorize => exact Keeps.joined (covers_handleAuthorizationMessage (keeps_ordinary stores) anyCall fields)
      | suggestDifficulty => exact Frame.covers_done true
      | submit =>
          apply Frame.covers_load
          intro state
          split
          · exact covers_bind (covers_ended (keeps_ordinary stores) anyCall) fun _ => Frame.covers_done false
          · exact (keeps_handleSubmitMessage stores sha256 fields).joined

theorem keeps_handleMessage (sha256 : Bytes → Bytes) (line : Option Json)
    (configure : ∀ fields, line = some (.object fields) →
      RequestMethod.ofValue (fields.lookup "method") = some .configure →
        Keeps keeps (handleConfigureMessage fields)) :
    Keeps keeps (handleMessage sha256 line) := by
  cases line with
  | none => exact covers_ended (keeps_ordinary stores) anyCall
  | some parsedMessage =>
      change Keeps keeps ((Program.ofExcept (Value.field (some parsedMessage) "method")).bind _)
      cases found : Value.field (some parsedMessage) "method" with
      | error thrown => exact Frame.covers_failed thrown
      | ok method =>
          have handles : RequestMethod.ofValue method = some .configure →
              Keeps keeps (handleConfigureMessage (requestFields parsedMessage)) := by
            intro isConfigure
            obtain ⟨fields, rfl, configures⟩ := method_eq_configure found isConfigure
            exact configure fields rfl configures
          apply covers_bind (keeps_dispatch stores sha256 _ handles)
          exact fun success => covers_continue (keeps_ordinary stores) anyCall success

/-- Every task of a connection keeps to a frame that allows all of its stores. -/
theorem keeps_task (sha256 : Bytes → Bytes) (configures : ∀ state message,
    keeps state { state with clientConfiguration := some message }) (task : ClientTask) :
    Keeps keeps (task.program sha256) := by
  cases task with
  | line message =>
      apply covers_guarded (keeps_ordinary stores) anyCall
      apply keeps_handleMessage stores
      exact fun fields _ _ => keeps_handleConfigureMessage stores configures fields
  | newMiningJob template =>
      apply covers_guarded (keeps_ordinary stores) anyCall
      exact covers_sendNewMiningJob (keeps_ordinary stores) anyCall template
  | destroy => exact keeps_destroy

end Handlers

end ComptoMiningPool
