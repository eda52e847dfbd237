import ComptoMiningPool.Client.Negotiation
import ComptoMiningPool.Client.SessionId
import ComptoMiningPool.Client.VersionBits
import ComptoMiningPool.Session.Wire

/-
This file proves that the script mines with the session that its connection holds.
-/

namespace ComptoMiningPool

open JavaScript Async StratumClient

namespace StratumClient

def ScriptEvent.mines : ScriptEvent → Bool
  | .called (.mine _) _ => true
  | _ => false

section Methods

variable (mask address : String) (id : ℕ)

theorem method_subscribeMessage : RequestMethod.ofValue ((subscribeMessage id).lookup "method") = some .subscribe :=
  rfl

theorem method_configureMessage :
    RequestMethod.ofValue ((configureMessage mask id).lookup "method") = some .configure := rfl

theorem method_authorizeMessage :
    RequestMethod.ofValue ((authorizeMessage address id).lookup "method") = some .authorize := rfl

theorem method_submitOf (session : Session) (params : MiningNotify) (extraNonce2 : String) (nonce : BitVec 32) :
    RequestMethod.ofValue ((submitOf session params extraNonce2 nonce id).lookup "method") = some .submit := rfl

end Methods

section Decoding

/-- The pool accepts the subscription of the script. -/
theorem decode_subscribeMessage (id : ℕ) :
    ∃ message, SubscriptionMessage.decode (subscribeMessage id) = .ok (.valid message) := ⟨_, rfl⟩

/-- The pool negotiates the whole mask that the script asks for. -/
theorem decode_configureMessage (id : ℕ) : ∃ configuration,
    ConfigurationMessage.decode (configureMessage "1fffe000" id) = .ok (.valid configuration) ∧
      configuration.versionRolling = true ∧ configuration.versionRollingMask.word = 0x1fffe000#32 := by
  refine ⟨_, rfl, rfl, ?_⟩
  change (parseHex "1fffe000").toInt32 &&& 0x1fffe000#32 = 0x1fffe000#32
  decide +kernel

end Decoding

section Requests

variable {sha256 : Bytes → Bytes} {address : String} {trace : ScriptTrace} {me id : ℕ} {fields : Fields}

theorem Sends.of_configure (sends : Sends sha256 address trace me fields)
    (method : RequestMethod.ofValue (fields.lookup "method") = some .configure) :
    ∃ session id subResponse, HoldsSession session trace ∧ Subscribed (own me trace) subResponse ∧
      fields = configureMessage session.versionRollingMask id := by
  cases sends with
  | subscribe id opened => cases (method_subscribeMessage id).symm.trans method
  | configure id holds subscribed => exact ⟨_, id, _, holds, subscribed, rfl⟩
  | authorize id configured => cases (method_authorizeMessage address id).symm.trans method
  | submit id mined notified holds mines => cases (method_submitOf id _ _ _ _).symm.trans method

theorem Sends.of_authorize (sends : Sends sha256 address trace me fields)
    (method : RequestMethod.ofValue (fields.lookup "method") = some .authorize) :
    ∃ subResponse cfgResponse, Configured (own me trace) subResponse cfgResponse := by
  cases sends with
  | subscribe id opened => cases (method_subscribeMessage id).symm.trans method
  | configure id holds subscribed => cases (method_configureMessage _ id).symm.trans method
  | authorize id configured => exact ⟨_, _, configured⟩
  | submit id mined notified holds mines => cases (method_submitOf id _ _ _ _).symm.trans method

/-- A subscription leaves the mask of the session. -/
theorem Session.subscribe_mask (session : Session) (subResponse : Line) :
    (session.subscribe subResponse).versionRollingMask = session.versionRollingMask := by
  unfold Session.subscribe
  split <;> rfl

/-- The mask that the script asks for is its own. -/
theorem mask_of_subscribed {session : Session} {subResponse : Line} (unmasked : Unmasked trace)
    (holds : HoldsSession session trace) (subscribed : Subscribed (own me trace) subResponse) :
    session.versionRollingMask = "1fffe000" := by
  obtain ⟨promise, id, owned⟩ := subscribed.exchanged
  have opened : (me, .started .connected) ∈ trace := by
    rw [← mem_own, owned]
    simp [exchange]
  rw [holds.opened unmasked me opened, owned]
  change (({} : Session).subscribe subResponse).versionRollingMask = _
  rw [Session.subscribe_mask]

/-- A configured session keeps the values of its first two responses. -/
theorem session_of_configured {session : Session} {before : ScriptTrace} {subResponse cfgResponse : Line}
    (unmasked : Unmasked trace) (holds : HoldsSession session trace) (grows : before <:+ trace)
    (configured : Configured (own me before) subResponse cfgResponse) :
    session = (({} : Session).subscribe subResponse).configure cfgResponse := by
  obtain ⟨promise, mask, id, earlier, owned, subscribed⟩ := configured.exchanged
  obtain ⟨promise', id', rfl⟩ := subscribed.exchanged
  have opened : (me, .started .connected) ∈ trace := by
    apply grows.subset
    rw [← mem_own, owned]
    simp [exchange]
  obtain ⟨newer, same⟩ := own_suffix me grows
  rw [holds.opened unmasked me opened, ← same, owned, responses, List.filterMap_append, List.reverse_append]
  rfl

end Requests

end StratumClient

namespace SessionLink

variable {sha256 : Bytes → Bytes} {address : String} {isPublicKey : String → Bool}
  {link : SessionLink sha256 address isPublicKey}

/-- A request that the connection handles was sent by the script. -/
theorem exists_sent (reached : link.Reachable) {other : ℕ} {history : ClientHistory} {method : RequestMethod}
    {fields : Fields} (within : history ⊆ own other link.connection.trace) (handles : Handles history method fields) :
    RequestMethod.ofValue (fields.lookup "method") = some method ∧
      ∃ me earlier, (me, .called (.send fields) ()) :: earlier <:+ link.script.trace ∧
        Sends sha256 address earlier me fields := by
  obtain ⟨request, value, started, named, same, rfl⟩ := handles
  obtain ⟨me, message, object, sent⟩ := sent_of_received reached (mem_own.mp (within started))
  cases object
  obtain rfl : message.lookup "method" = value := Except.ok.inj named
  have accepted := ((scriptContract_proved sha256 address).reachable (script_reached reached)).2
  obtain ⟨earlier, suffix⟩ := exists_cons_suffix sent
  exact ⟨same, me, earlier, suffix, (accepted me _ earlier suffix).1⟩

/-- The thread of a request handles no other request. -/
theorem handles_only (reached : link.Reachable) {other : ℕ} {history : ClientHistory} {method : RequestMethod}
    {fields request : Fields} (within : history ⊆ own other link.connection.trace)
    (started : .started (.line (some (.object request))) ∈ history) (handles : Handles history method fields) :
    fields = request ∧ RequestMethod.ofValue (request.lookup "method") = some method := by
  obtain ⟨message, value, started', named, same, rfl⟩ := handles
  have one := (connection_reached reached).started_unique (mem_own.mp (within started')) (mem_own.mp (within started))
  cases one
  obtain rfl : request.lookup "method" = value := Except.ok.inj named
  exact ⟨rfl, same⟩

/-- The answer to the subscription of the script carries the session id of the connection. -/
theorem session_of_subscribed (reached : link.Reachable) {me promise id : ℕ} {line : Line} {past : ScriptHistory}
    (exchanged : exchange promise (subscribeMessage id) line ++ past <:+ own me link.script.trace)
    (parsed : ∃ subscription, parseSubscribeResponse line = .ok subscription) :
    ∃ sessionId, link.connection.state.extraNonceAndSessionId = some sessionId ∧
      parseSubscribeResponse line = .ok (sessionId, 4) := by
  obtain ⟨other, history, suffix, started, answers⟩ := answers_of_exchange reached exchanged
  have within : history ⊆ own other link.connection.trace :=
    List.Subset.trans (List.subset_cons_self _ _) suffix.subset
  have written : (other, .issued (.writeSocket line)) ∈ link.connection.trace :=
    mem_own.mp (suffix.subset List.mem_cons_self)
  have method : ∀ {method fields}, Handles history method fields → some method = some .subscribe := by
    intro method fields handles
    exact (handles_only reached within started handles).2.symm.trans (method_subscribeMessage id)
  obtain ⟨subscription, parsed⟩ := parsed
  cases answers with
  | notified started added built =>
      obtain ⟨params, rfl, _⟩ := MiningJob.response_ok built
      cases parsed
  | difficulty initialized => cases parsed
  | invalid handles rejects => cases parsed
  | configured handles valid => cases method handles
  | authorized handles valid => cases method handles
  | refused handles valid refusal => cases parsed
  | accepted handles valid paid => cases method handles
  | @subscribed fields message clientId handles valid =>
      obtain ⟨kept, accepted⟩ :=
        (submissionContract_proved sha256 (stratumDecoder isPublicKey)).reachable (connection_reached reached)
      obtain ⟨earlier, older, _, sessionId, drawn, named⟩ := accepted.of_mem written
      refine ⟨sessionId, kept.core.stored_of_drawn older drawn, ?_⟩
      have same : message.response clientId = .response message.id (.array (subscriptionResult sessionId)) :=
        congrArg (fun elements => Line.response message.id (.array elements)) named
      rw [same]
      rfl

/-- A configuration that the connection decodes for the script rolls the whole mask of the script. -/
theorem rolls_of_handled (reached : link.Reachable) {other : ℕ} {history : ClientHistory} {fields : Fields}
    {configuration : ConfigurationMessage} (within : history ⊆ own other link.connection.trace)
    (handles : Handles history .configure fields)
    (valid : ConfigurationMessage.decode fields = .ok (.valid configuration)) :
    configuration.versionRolling = true ∧ configuration.versionRollingMask.word = 0x1fffe000#32 := by
  obtain ⟨method, me, earlier, sent, sends⟩ := exists_sent reached within handles
  obtain ⟨session, id, subResponse, holds, subscribed, rfl⟩ := sends.of_configure method
  have unmasked := (unmasked reached).of_suffix ((List.suffix_cons _ _).trans sent)
  rw [mask_of_subscribed unmasked holds subscribed] at valid
  obtain ⟨expected, decoded, rolling, word⟩ := decode_configureMessage id
  cases valid.symm.trans decoded
  exact ⟨rolling, word⟩

theorem rolls_of_validated (reached : link.Reachable) {configuration : ConfigurationMessage}
    (validated : ConfigurationValidated configuration link.connection.trace) :
    configuration.versionRolling = true ∧ configuration.versionRollingMask.word = 0x1fffe000#32 := by
  obtain ⟨other, fields, member⟩ := validated
  obtain ⟨history, suffix, handles⟩ := Reachable.answersOwn (connection_reached reached) member
  have within : history ⊆ own other link.connection.trace :=
    List.Subset.trans (List.subset_cons_self _ _) suffix.subset
  exact rolls_of_handled reached within handles (decoded_of_validated (connection_reached reached) member)

/-- The answer to the configuration of the script carries its mask back. -/
theorem mask_of_configured (reached : link.Reachable) {me promise id : ℕ} {mask : String} {line : Line}
    {past : ScriptHistory} (exchanged : exchange promise (configureMessage mask id) line ++ past <:+
      own me link.script.trace) (parsed : ∃ result, parseConfigureResponse line = .ok result) (session : Session) :
    session.configure line = { session with versionRollingMask := "1fffe000" } := by
  obtain ⟨other, history, suffix, started, answers⟩ := answers_of_exchange reached exchanged
  have within : history ⊆ own other link.connection.trace :=
    List.Subset.trans (List.subset_cons_self _ _) suffix.subset
  have method : ∀ {method fields}, Handles history method fields → some method = some .configure := by
    intro method fields handles
    exact (handles_only reached within started handles).2.symm.trans (method_configureMessage mask id)
  obtain ⟨result, parsed⟩ := parsed
  cases answers with
  | notified started added built =>
      obtain ⟨params, rfl, _⟩ := MiningJob.response_ok built
      cases parsed
  | difficulty initialized => cases parsed
  | invalid handles rejects => cases parsed
  | subscribed clientId handles valid => cases method handles
  | authorized handles valid => cases method handles
  | refused handles valid refusal => cases parsed
  | accepted handles valid paid => cases method handles
  | @configured fields configuration handles valid =>
      obtain ⟨rolling, word⟩ := rolls_of_handled reached within handles valid
      have announced : configuration.response = .response configuration.id (.object
          [("version-rolling", .bool true), ("version-rolling.mask", .string "1fffe000")]) := by
        rw [ConfigurationMessage.response, if_pos rolling, word]
        rfl
      have lower : String.toLower "1fffe000" = "1fffe000" := by decide +kernel
      rw [announced]
      change (if String.toLower "1fffe000" ≠ "" then
        { session with versionRollingMask := String.toLower "1fffe000" } else session) = _
      rw [lower, if_pos (by decide)]

/-- The session that the script and the connection share. -/
def shared (sessionId : String) : Session := ⟨"1fffe000", 4, sessionId⟩

/-- A script that has received a job holds the session of the connection. -/
theorem session_of_notified (reached : link.Reachable) {earlier : ScriptTrace} (grows : earlier <:+ link.script.trace)
    {session : Session} (holds : HoldsSession session earlier) {me : ℕ} {params : MiningNotify}
    (notified : (me, .started (.data (.notify params))) ∈ earlier) : ∃ sessionId,
      link.connection.state.extraNonceAndSessionId = some sessionId ∧ session = shared sessionId := by
  -- The job was written after the difficulty, and so after the authorization that the script sent when it was configured.
  obtain ⟨later, past, rfl⟩ := List.append_of_mem notified
  have entered : (me, .started (.data (.notify params))) :: past <:+ link.script.trace :=
    (List.suffix_append _ _).trans grows
  obtain ⟨before, reached', scriptGrows, _, sent⟩ := Link.Reachable.exists_before reached entered rfl
  obtain ⟨other, event, member, sends⟩ := Semantics.mem_sent.mp sent
  obtain ⟨line, same, rfl⟩ := ClientEvent.sends_eq sends
  cases same
  have orderly := orderlyStartup_of_accepted
    ((connectionContract_proved sha256 (stratumDecoder isPublicKey)).reachable (connection_reached reached')).2
  obtain ⟨written, older, set⟩ := orderly.notifiesLast.of_mem member
  obtain ⟨⟨index, setting⟩, inside, sets⟩ := set rfl
  obtain ⟨started, older', authorized⟩ := orderly.answersFirst.of_mem (older inside)
  obtain ⟨thread, fields, message, validated, _⟩ := (authorized sets).2
  obtain ⟨history, suffix, handles⟩ := Reachable.answersOwn (connection_reached reached') (older' validated)
  have within : history ⊆ own thread (connection before).trace :=
    List.Subset.trans (List.subset_cons_self _ _) suffix.subset
  obtain ⟨method, opener, first, requested, requests⟩ := exists_sent reached' within handles
  obtain ⟨subResponse, cfgResponse, configured⟩ := requests.of_authorize method
  have configuredGrows : first <:+ later ++ (me, .started (.data (.notify params))) :: past :=
    ((List.suffix_cons _ _).trans (requested.trans scriptGrows)).trans
      ((List.suffix_cons _ _).trans (List.suffix_append _ _))
  rw [session_of_configured ((unmasked reached).of_suffix grows) holds configuredGrows configured]
  -- Both responses of the session are the answers of the connection.
  obtain ⟨promise, mask, id, subscribing, owned, subscribed⟩ := configured.exchanged
  obtain ⟨promise', id', rfl⟩ := subscribed.exchanged
  have kept : own opener first <:+ own opener link.script.trace := own_suffix opener (configuredGrows.trans grows)
  rw [owned] at kept
  obtain ⟨sessionId, stored, parsed⟩ := session_of_subscribed reached
    ((List.suffix_append _ _).trans kept) subscribed.parsed
  refine ⟨sessionId, stored, ?_⟩
  rw [mask_of_configured reached kept configured.parsed, Session.subscribe, parsed]
  rfl

end SessionLink

/-- The script mines with the session id of its connection, and both sides roll the same mask. -/
structure SharesSession (sha256 : Bytes → Bytes) {address : String} {isPublicKey : String → Bool}
    (link : SessionLink sha256 address isPublicKey) : Prop where
  mined : ∀ me work answer, (me, .called (.mine work) answer) ∈ link.script.trace → ∃ sessionId params extraNonce2,
    link.connection.state.extraNonceAndSessionId = some sessionId ∧
      (∃ other, (other, .issued (.writeSocket (.notify params))) ∈ link.connection.trace) ∧
        Mines sha256 ⟨"1fffe000", 4, sessionId⟩ params extraNonce2 work
  configured : ∀ configuration, ConfigurationValidated configuration link.connection.trace →
    configuration.versionRolling = true ∧ configuration.versionRollingMask.word = 0x1fffe000#32

/-- In every run of the link the script mines only jobs that its connection has written, with the session id that
the connection holds and the mask that it has negotiated. -/
theorem link_shares_session (sha256 : Bytes → Bytes) (address : String) (isPublicKey : String → Bool)
    {link : SessionLink sha256 address isPublicKey} (reached : link.Reachable) : SharesSession sha256 link := by
  refine ⟨?_, fun configuration validated => SessionLink.rolls_of_validated reached validated⟩
  intro me work answer member
  have accepted := ((scriptContract_proved sha256 address).reachable (SessionLink.script_reached reached)).2
  obtain ⟨earlier, suffix⟩ := exists_cons_suffix member
  have grows : earlier <:+ link.script.trace := (List.suffix_cons _ _).trans suffix
  obtain ⟨_, session, params, extraNonce2, notified, holds, mines⟩ := accepted me _ earlier suffix
  obtain ⟨sessionId, stored, rfl⟩ := SessionLink.session_of_notified reached grows holds (mem_own.mp notified)
  have written := SessionLink.written_of_received reached (grows.subset (mem_own.mp notified))
  exact ⟨sessionId, params, extraNonce2, stored, written, mines⟩

/-- The script mines once, and it shares the session of its connection. -/
theorem link_shares_session_accepted :
    (acceptedLink.script.trace.any fun pair => ScriptEvent.mines pair.2) = true ∧ SharesSession id acceptedLink :=
  ⟨by decide +kernel, link_shares_session _ _ _ acceptedLink_reachable⟩

end ComptoMiningPool
