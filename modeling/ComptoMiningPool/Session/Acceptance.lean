import ComptoMiningPool.Client.MaskRefusal
import ComptoMiningPool.Session.Settlement

/-
This file starts from the log of the script. It proves that the chain service has paid for each submit that the
script logs as accepted.
-/

namespace ComptoMiningPool

open JavaScript Async StratumClient

namespace StratumClient

/-- The thread of the script logs that its submit was accepted. -/
def LogsAccepted (trace : ScriptTrace) (me : ℕ) : Prop := (me, .called (.submitAccepted true) ()) ∈ trace

theorem exists_logged {trace : ScriptTrace} (accepted : (trace.any fun pair => ScriptEvent.accepts pair.2) = true) :
    ∃ me, LogsAccepted trace me := by
  obtain ⟨⟨me, event⟩, member, accepts⟩ := List.any_eq_true.mp accepted
  change ScriptEvent.accepts event = true at accepts
  unfold ScriptEvent.accepts at accepts
  split at accepts
  · obtain rfl := accepts
    exact ⟨me, member⟩
  · cases accepts

/-- Only a response with the result `true` is logged as accepted. -/
theorem line_of_accepted {line : Line} (parsed : parseSubmitResponse line = .ok true) :
    ∃ id, line = .response id (.bool true) := by
  cases line with
  | response id result =>
      cases result with
      | bool accepted =>
          obtain rfl : accepted = true := Except.ok.inj parsed
          exact ⟨id, rfl⟩
      | _ => cases parsed
  | _ => cases parsed

/-- The bits that the script rolls under its mask do not depend on the version. -/
theorem bits_of_mask (version : String) : (applyVersionRolling version "1fffe000").1 = 0x6000#32 := by
  have mask : (parseHex "1fffe000").toInt32 = 0x1fffe000#32 := by decide +kernel
  simp only [applyVersionRolling, mask]
  decide +kernel

section Sends

variable {sha256 : Bytes → Bytes} {address : String} {trace : ScriptTrace} {me : ℕ} {fields : Fields}

/-- A thread that has mined sends a submit. -/
theorem Sends.method_of_mined (sends : Sends sha256 address trace me fields) {work : MiningWork}
    {answer : Except Thrown (BitVec 32)} {past : ScriptHistory}
    (mined : own me trace = .called (.mine work) answer :: past) :
    RequestMethod.ofValue (fields.lookup "method") = some .submit := by
  cases sends with
  | subscribe id opened =>
      rw [mined] at opened
      cases opened
  | configure id holds subscribed =>
      obtain ⟨promise, id', owned⟩ := subscribed.exchanged
      rw [mined] at owned
      cases owned
  | authorize id configured =>
      obtain ⟨promise, mask, id', earlier, owned, _⟩ := configured.exchanged
      rw [mined] at owned
      cases owned
  | submit id mined notified holds mines => exact method_submitOf id _ _ _ _

end Sends

end StratumClient

namespace SessionLink

variable {sha256 : Bytes → Bytes} {address : String} {isPublicKey : String → Bool}
  {link : SessionLink sha256 address isPublicKey}

/-- The pool never refuses the mask of the script. -/
theorem unrefused (reached : link.Reachable) (other : ℕ) (message : MiningSubmitMessage) :
    (other, .issued (.writeSocket (invalidMaskLine message))) ∉ link.connection.trace := by
  intro written
  have connected := connection_reached reached
  obtain ⟨configuration, fields, submit, validated, member, _, exceeded⟩ := Reachable.refusesMask connected written
  obtain ⟨history, suffix, handles⟩ := Reachable.answersOwn connected member
  have within : history ⊆ own other link.connection.trace :=
    List.Subset.trans (List.subset_cons_self _ _) suffix.subset
  -- The refused submit is a submit of the script under the mask of its session.
  obtain ⟨method, me, earlier, sent, sends⟩ := exists_sent reached within handles
  obtain ⟨session, params, extraNonce2, work, nonce, submits⟩ := sends.of_submit method
  have grows : earlier <:+ link.script.trace := (List.suffix_cons _ _).trans sent
  obtain ⟨sessionId, _, rfl⟩ := session_of_notified reached grows submits.holds submits.notified
  obtain ⟨id, rfl⟩ := submits.carries
  obtain ⟨_, _, _, admitted⟩ := connected.admitted.of_mem member
  obtain ⟨_, _, _, _, masked⟩ := fields_of_decoded admitted.symm
  apply exceeded
  rw [masked, (rolls_of_validated reached validated).2]
  change (parseHex (int32Text (applyVersionRolling params.version.toLower "1fffe000").1)).toInt32 &&& _ = 0
  rw [bits_of_mask]
  decide +kernel

/-- The connection has accepted the share that the script logs as accepted. -/
theorem accepts_of_logged (reached : link.Reachable) {me : ℕ} (logged : LogsAccepted link.script.trace me) :
    ∃ other fields, Carries link me other fields ∧ AcceptsShare link.connection.trace other := by
  have accepted := ((scriptContract_proved sha256 address).reachable (script_reached reached)).2
  obtain ⟨earlier, suffix⟩ := exists_cons_suffix logged
  have grows : earlier <:+ link.script.trace := (List.suffix_cons _ _).trans suffix
  obtain ⟨promise, fields, line, work, nonce, past, owned, parsed⟩ := accepted me _ earlier suffix
  have exchanged : exchange promise fields line ++ .called (.mine work) (.ok nonce) :: past <:+
      own me link.script.trace := by
    rw [← owned]
    exact own_suffix me grows
  obtain ⟨other, history, inside, started, _⟩ := answers_of_exchange reached exchanged
  obtain ⟨id, rfl⟩ := line_of_accepted parsed
  have within : history ⊆ own other link.connection.trace :=
    List.Subset.trans (List.subset_cons_self _ _) inside.subset
  have received : (other, .started (.line (some (.object fields)))) ∈ link.connection.trace :=
    mem_own.mp (within started)
  -- The request of the thread is the submit of the work that it has mined.
  have sending : .called (.send fields) () :: .called (.mine work) (.ok nonce) :: past <:+ own me link.script.trace :=
    List.IsSuffix.trans ((List.suffix_cons _ _).trans (List.suffix_cons _ _)) exchanged
  obtain ⟨before, sent, mined⟩ := exists_of_own_suffix sending
  have method := (accepted me _ before sent).1.method_of_mined mined
  refine ⟨other, fields, ⟨sent.subset List.mem_cons_self, received, method⟩, ?_, ?_, unrefused reached other⟩
  · refine ⟨_, received, ?_⟩
    exact decide_eq_true method
  · exact ⟨id, mem_own.mp (inside.subset List.mem_cons_self)⟩

/-- Two threads of the script never send the line of one thread of the connection. -/
theorem Carries.sender_unique (reached : link.Reachable) {first second other : ℕ} {fields fields' : Fields}
    (one : Carries link first other fields) (two : Carries link second other fields') : first = second := by
  have accepted := ((scriptContract_proved sha256 address).reachable (script_reached reached)).2
  have same := (connection_reached reached).started_unique one.received two.received
  cases same
  obtain ⟨_, _, _, number, numbered, _⟩ := accepted.of_mem one.sent
  exact (request_of_id accepted one.sent two.sent numbered numbered).1

end SessionLink

/-- Each submit that the script logs as accepted is settled: its own thread has mined the work, and the service has
paid for it in a thread of its own. -/
def PaysScript {sha256 : Bytes → Bytes} {address : String} {isPublicKey : String → Bool} {service : RpcService}
    (pool : MiningPool sha256 isPublicKey service) (history : JobsHistory)
    (link : SessionLink sha256 address isPublicKey) : Prop :=
  ∃ worker : ℕ → ℕ, Set.InjOn worker {me | LogsAccepted link.script.trace me} ∧
    ∀ me, LogsAccepted link.script.trace me → ∃ submission work nonce,
      SettlesShare pool history link me (worker me) submission work nonce

section Session

/-- The script receives the success line of the pool, and its submit goes on. -/
def acceptance : List (Move ScriptTask) := [.start (.data (acceptingPool (.response 3))), .resume 5]

@[irreducible] def paidScript : System ScriptState ScriptAnswer Thrown Unit ScriptTask :=
  acceptance.foldl (System.move (scriptSemantics id "miner") acceptingPool) settledLink.script

def paidLink : AcceptingLink := { settledLink with near := paidScript }

theorem paidLink_reachable : paidLink.Reachable := by
  refine settledLink_reachable.near_steps ?_ (by decide +kernel)
  unfold paidScript
  exact steps_of_allSettled (by decide +kernel) (by decide +kernel)

end Session

end ComptoMiningPool
