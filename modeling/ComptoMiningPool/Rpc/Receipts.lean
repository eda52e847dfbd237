import ComptoMiningPool.Async.Local
import ComptoMiningPool.Rpc.Accounting

/-
This file follows each submission to its reply, in all interleavings of the chain service. It proves what a
reply of success says about the mint and the transfer.
-/

namespace ComptoMiningPool

open JavaScript Async

/-- Each task returns to its caller. Only a submission returns a reply. -/
def RpcService.returning (service : RpcService) : RpcTask → RpcProgram (Option (Reply Bool))
  | .pollMiningInfo => pollMiningInfo.bind fun _ => .done none
  | .tick interval => (pollTick interval).bind fun _ => .done none
  | .submitProof submission => (service.submitProof submission).bind fun reply => .done (some reply)

/-- The chain may give every answer. -/
def RpcService.replies (service : RpcService) : Semantics RpcState RpcAnswer Thrown (Option (Reply Bool)) RpcTask where
  program := service.returning
  mayStart state _ task := task.mayStart state
  admits _ _ _ _ _ := True
  disturbs _ _ := False

/-- A chain request fails with an error that the later tests take for a success. -/
def RpcEvent.silent : RpcEvent → Bool
  | .answered (.submitMiningProof _) (.error thrown) => !(loggedError thrown).truthy
  | .answered .fetchUserData (.error thrown) => !(loggedError thrown).truthy
  | .answered (.resizeUserDataAccount _) (.error thrown) => !(loggedError thrown).truthy
  | .answered (.sendAndConfirmTransaction _ _) (.error thrown) => !(loggedError thrown).truthy
  | _ => false

def hushed (history : RpcHistory) : Bool := history.any RpcEvent.silent

/-- The proof carries the values of the submission, for the key and the target of the service. -/
structure RpcService.Builds (service : RpcService) (submission : Submission) (proof : ComptokenProof) : Prop where
  pubkey : proof.pubkey = service.publicKey
  extraData : proof.extraData = submission.extraData
  nonce : proof.nonce = submission.nonce
  version : proof.version = submission.version
  timestamp : proof.timestamp = submission.timestamp
  target : proof.target = service.target

def Minted (proof : ComptokenProof) (history : RpcHistory) : Prop :=
  ∃ signature, .answered (.submitMiningProof proof) (.ok signature) ∈ history

/-- The recipient has received what the fee leaves of the mined amount. -/
def Transferred (recipient : String) (fee : Number) (history : RpcHistory) : Prop :=
  ∃ amount signature, (userPayoutAmount fee).toBigInt = some amount ∧
    .answered (.sendAndConfirmTransaction recipient amount) (.ok signature) ∈ history

/-- The own proof was found low enough and was minted, and a due payout has reached the recipient. -/
structure PaidFor (service : RpcService) (submission : Submission) (history : RpcHistory) : Prop where
  minted : ∃ proof, service.Builds submission proof ∧
    .called (.isLowerThanTarget proof) (.ok true) ∈ history ∧ Minted proof history
  transferred : payoutDue submission.fee = true → Transferred submission.recipient submission.fee history

/-- A thread mints once and sends one transfer. -/
def mintsOnce (history : RpcHistory) (event : RpcEvent) : Prop :=
  (event.mints = true → minted history = false) ∧ (event.sendsTransfer = true → transferSent history = false)

theorem mintsOnce_of_quiet {history : RpcHistory} {event : RpcEvent} (unminted : event.mints = false)
    (unsent : event.sendsTransfer = false) : mintsOnce history event := by
  constructor
  · rw [unminted]
    exact nofun
  · rw [unsent]
    exact nofun

section Rules

variable {V : Type} {post : LocalPost RpcAnswer Thrown V RpcTask} {history : RpcHistory}

/-- The chain gives any answer, and the thread mints once. -/
abbrev Meets (program : RpcProgram V) (post : LocalPost RpcAnswer Thrown V RpcTask) (history : RpcHistory) : Prop :=
  localWp (fun _ _ => True) mintsOnce program post history

theorem meets_joined {program : RpcProgram V}
    (holds : Meets program (fun result later => post result (afterTurn later)) history) :
    Meets (program.joined .turn) post history := by
  rw [Meets, localWp_joined]
  apply localWp_mono _ holds
  intro result later met
  refine ⟨mintsOnce_of_quiet rfl rfl, ?_⟩
  intro answer _
  refine ⟨mintsOnce_of_quiet rfl rfl, ?_⟩
  rw [localWp_ofExcept]
  exact met

theorem meets_try {fn : RpcProgram V} {post : LocalPost RpcAnswer Thrown (Logged V) RpcTask}
    (holds : Meets fn (fun result later => post (.ok (logged result)) (afterTurn (afterTurn later))) history) :
    Meets ((tryWithLog fn).joined .turn) post history := by
  apply meets_joined
  rw [Meets, tryWithLog, localWp_attempt, localWp_bind]
  apply meets_joined
  apply localWp_mono _ holds
  intro result later met
  cases result with
  | ok value => exact met
  | error thrown => exact met

/-- A request that the monitor accepts returns what the chain answers. -/
theorem meets_request {call : RpcCall} {result : RpcAnswer call → Except Thrown V}
    (asked : mintsOnce history (.issued call))
    (continues : ∀ answer, mintsOnce (.issued call :: history) (.answered call answer) ∧
      post (result answer) (.answered call answer :: .issued call :: history)) :
    Meets ((Program.awaiting call).bind fun answer => .ofExcept (result answer)) post history := by
  refine ⟨asked, ?_⟩
  intro answer _
  refine ⟨(continues answer).1, ?_⟩
  change localWp _ _ (Program.ofExcept (result answer)) _ _
  rw [localWp_ofExcept]
  exact (continues answer).2

@[simp] theorem hushed_cons (event : RpcEvent) : hushed (event :: history) = (event.silent || hushed history) := rfl

@[simp] theorem hushed_afterTurn : hushed (afterTurn history) = hushed history := rfl

end Rules

section Submission

variable {history longer : RpcHistory}

theorem Minted.later {proof : ComptokenProof} (minted : Minted proof history) (suffix : history <:+ longer) :
    Minted proof longer := by
  obtain ⟨signature, member⟩ := minted
  exact ⟨signature, suffix.subset member⟩

theorem hushed_later (isHushed : hushed history = true) (suffix : history <:+ longer) : hushed longer = true := by
  obtain ⟨event, member, silent⟩ := List.any_eq_true.mp isHushed
  exact List.any_eq_true.mpr ⟨event, suffix.subset member, silent⟩

/-- A reply that counts as a success follows a value or a silent failure. -/
theorem meets_increaseUserDataCapacity (additionalCapacity : ℕ) (unminted : minted history = false)
    (unsent : transferSent history = false) :
    Meets (increaseUserDataCapacity additionalCapacity) (fun result later => ∃ reply, result = .ok reply ∧
      minted later = false ∧ transferSent later = false ∧ (reply.error?.truthy = false →
        (∃ signature, reply = .result signature) ∨ hushed later = true)) history := by
  unfold increaseUserDataCapacity
  simp only [Program.bind_eq]
  rw [Meets, localWp_bind]
  apply meets_try
  apply meets_request (mintsOnce_of_quiet rfl rfl)
  intro fetched
  refine ⟨mintsOnce_of_quiet rfl rfl, ?_⟩
  cases fetched with
  | error thrown =>
      refine ⟨_, rfl, ?_, ?_, ?_⟩
      · simpa [RpcEvent.mints] using unminted
      · simpa [RpcEvent.sendsTransfer] using unsent
      · intro falsy
        have silent : (loggedError thrown).truthy = false := falsy
        exact .inr (by simp [RpcEvent.silent, silent])
  | ok capacity =>
      change localWp _ _ (((tryWithLog (resizeUserDataAccount (capacity + additionalCapacity))).joined .turn).bind
        fun resizeResult => .done resizeResult.reply) _ _
      rw [localWp_bind]
      apply meets_try
      apply meets_request (mintsOnce_of_quiet rfl rfl)
      intro resized
      refine ⟨mintsOnce_of_quiet rfl rfl, ?_⟩
      refine ⟨_, rfl, ?_, ?_, ?_⟩
      · simpa [RpcEvent.mints] using unminted
      · simpa [RpcEvent.sendsTransfer] using unsent
      · intro falsy
        cases resized with
        | ok signature => exact .inl ⟨signature, rfl⟩
        | error thrown =>
            have silent : (loggedError thrown).truthy = false := falsy
            exact .inr (by simp [RpcEvent.silent, silent])

/-- One request for a mint, with its retry or without. -/
theorem meets_submitMiningProof (proof : ComptokenProof)
    {post : LocalPost RpcAnswer Thrown (Logged String) RpcTask} (unminted : minted history = false)
    (unsent : transferSent history = false)
    (continues : ∀ answer later, transferSent later = false →
      (∀ signature, answer = .ok signature → Minted proof later) →
      (∀ thrown, answer = .error thrown → minted later = false) →
      (∀ thrown, answer = .error thrown → (loggedError thrown).truthy = false → hushed later = true) →
      post (.ok (logged answer)) later) :
    Meets ((tryWithLog (submitMiningProof proof)).joined .turn) post history := by
  apply meets_try
  apply meets_request (mintsOnce_of_quiet rfl rfl)
  intro answer
  constructor
  · refine ⟨fun _ => ?_, nofun⟩
    simpa [RpcEvent.mints] using unminted
  · apply continues
    · simpa [RpcEvent.sendsTransfer] using unsent
    · rintro signature rfl
      exact ⟨signature, by simp [afterTurn]⟩
    · rintro thrown rfl
      simpa [RpcEvent.mints] using unminted
    · rintro thrown rfl silent
      simp [RpcEvent.silent, silent]

/-- A reply that counts as a success follows the mint or a silent failure. -/
theorem meets_mineComptokens (proof : ComptokenProof) (unminted : minted history = false)
    (unsent : transferSent history = false) :
    Meets (mineComptokens proof) (fun result later => ∃ reply, result = .ok reply ∧ transferSent later = false ∧
      (reply.error?.truthy = false → Minted proof later ∨ hushed later = true)) history := by
  unfold mineComptokens
  simp only [Program.bind_eq]
  rw [Meets, localWp_bind]
  apply meets_submitMiningProof proof unminted unsent
  intro answer later unsent mints unminted hushes
  cases answer with
  | ok signature => exact ⟨_, rfl, unsent, fun _ => .inl (mints signature rfl)⟩
  | error thrown =>
      simp only [logged]
      by_cases exceeded : thrown.errorCode = some capacityExceeded
      · simp only [exceeded, if_true]
        rw [localWp_bind]
        apply meets_joined
        apply localWp_mono _ (meets_increaseUserDataCapacity 100 (unminted thrown rfl) unsent)
        rintro result later ⟨reply, rfl, unminted, unsent, follows⟩
        cases reply with
        | error message =>
            refine ⟨_, rfl, unsent, ?_⟩
            intro falsy
            rcases follows falsy with ⟨signature, impossible⟩ | isHushed
            · cases impossible
            · exact .inr isHushed
        | result signature =>
            change localWp _ _ (((tryWithLog (submitMiningProof proof)).joined .turn).bind
              fun retried => .done retried.reply) _ _
            rw [localWp_bind]
            have unminted' : minted (afterTurn later) = false := unminted
            have unsent' : transferSent (afterTurn later) = false := unsent
            apply meets_submitMiningProof proof unminted' unsent'
            intro retried later unsent mints _ hushes
            cases retried with
            | ok signature => exact ⟨_, rfl, unsent, fun _ => .inl (mints signature rfl)⟩
            | error thrown => exact ⟨_, rfl, unsent, fun falsy => .inr (hushes thrown rfl falsy)⟩
      · simp only [exceeded, if_false]
        exact ⟨_, rfl, unsent, fun falsy => .inr (hushes thrown rfl falsy)⟩

/-- A reply that counts as a success follows the due transfer or a silent failure. -/
theorem meets_processFees (recipient : String) (fee : Number) (unsent : transferSent history = false) :
    Meets (processFees recipient fee) (fun result later => ∀ reply, result = .ok reply → reply.error?.truthy = false →
      payoutDue fee = true → Transferred recipient fee later ∨ hushed later = true) history := by
  unfold processFees
  cases validFee fee with
  | false => exact nofun
  | true =>
      cases due : Number.le (userPayoutAmount fee) 0 with
      | true =>
          intro reply _ _ isDue
          rw [payoutDue, due] at isDue
          cases isDue
      | false =>
          cases converted : (userPayoutAmount fee).toBigInt with
          | none => exact nofun
          | some amount =>
              change localWp _ _ ((createTransferInstruction recipient amount).bind fun _ =>
                ((tryWithLog (sendAndConfirmTransaction recipient amount)).joined .turn).bind
                  fun transferred => .done transferred.reply) _ _
              rw [localWp_bind]
              apply meets_request (mintsOnce_of_quiet rfl rfl)
              intro built
              refine ⟨mintsOnce_of_quiet rfl rfl, ?_⟩
              cases built with
              | error thrown => exact nofun
              | ok done =>
                  change localWp _ _ (((tryWithLog (sendAndConfirmTransaction recipient amount)).joined .turn).bind
                    fun transferred => .done transferred.reply) _ _
                  rw [localWp_bind]
                  apply meets_try
                  apply meets_request
                  · refine ⟨nofun, fun _ => ?_⟩
                    simpa [RpcEvent.sendsTransfer] using unsent
                  · intro answer
                    refine ⟨mintsOnce_of_quiet rfl rfl, ?_⟩
                    intro reply same falsy _
                    obtain rfl := Except.ok.inj same
                    cases answer with
                    | ok signature => exact .inl ⟨amount, signature, converted, by simp [afterTurn]⟩
                    | error thrown =>
                        have silent : (loggedError thrown).truthy = false := falsy
                        exact .inr (by simp [RpcEvent.silent, silent])

/-- A verified proof carries the values of its submission and was found low enough. -/
theorem meets_verifyProof (service : RpcService) (submission : Submission) (unminted : minted history = false)
    (unsent : transferSent history = false) :
    Meets (service.verifyProof submission.extraData submission.nonce submission.version submission.timestamp
      service.publicKey) (fun result later => minted later = false ∧ transferSent later = false ∧
        ∀ proof, result = .ok (.result proof) → service.Builds submission proof ∧
          .called (.isLowerThanTarget proof) (.ok true) ∈ later) history := by
  unfold RpcService.verifyProof
  simp only [Program.bind_eq, Program.load, Program.bind, Meets, localWp]
  intro state
  have unproved : ∀ (thrown : Thrown) (proof : ComptokenProof),
      (.error thrown : Except Thrown (Reply ComptokenProof)) ≠ .ok (.result proof) := by
    intro thrown proof same
    cases same
  cases state.blockHash with
  | none => exact ⟨unminted, unsent, fun proof same => absurd same (unproved _ proof)⟩
  | some recentBlockHash =>
      intro constructed _
      refine ⟨mintsOnce_of_quiet rfl rfl, ?_⟩
      cases constructed with
      | error failure => exact ⟨unminted, unsent, fun proof same => absurd same (unproved failure proof)⟩
      | ok built =>
          intro compared _
          refine ⟨mintsOnce_of_quiet rfl rfl, ?_⟩
          cases compared with
          | error failure => exact ⟨unminted, unsent, fun proof same => absurd same (unproved failure proof)⟩
          | ok lower =>
              cases lower with
              | false =>
                  refine ⟨unminted, unsent, ?_⟩
                  intro proof same
                  cases same
              | true =>
                  refine ⟨unminted, unsent, ?_⟩
                  rintro proof same
                  cases same
                  exact ⟨⟨rfl, rfl, rfl, rfl, rfl, rfl⟩, List.mem_cons_self⟩

/-- A verified proof that was minted pays for its submission when the due transfer was sent. -/
theorem paid_of_minted {service : RpcService} {submission : Submission} {proof : ComptokenProof}
    (builds : service.Builds submission proof) (low : .called (.isLowerThanTarget proof) (.ok true) ∈ history)
    (mints : Minted proof history ∨ hushed history = true)
    (pays : payoutDue submission.fee = true →
      Transferred submission.recipient submission.fee history ∨ hushed history = true) :
    PaidFor service submission history ∨ hushed history = true := by
  by_cases isHushed : hushed history = true
  · exact .inr isHushed
  · refine .inl ⟨⟨proof, builds, low, mints.resolve_right isHushed⟩, ?_⟩
    exact fun due => (pays due).resolve_right isHushed

/-- A verified proof is minted and paid for before the reply of success, unless a request fails silently. -/
theorem meets_mineAndPay {service : RpcService} {submission : Submission} {proof : ComptokenProof}
    (builds : service.Builds submission proof) (low : .called (.isLowerThanTarget proof) (.ok true) ∈ history)
    (unminted : minted history = false) (unsent : transferSent history = false) :
    Meets (mineAndPay proof submission.recipient submission.fee) (fun result later => result = .ok (.result true) →
      PaidFor service submission later ∨ hushed later = true) history := by
  unfold mineAndPay
  simp only [Program.bind_eq]
  rw [Meets, localWp_bind]
  apply meets_joined
  apply localWp_mono _ (localWp_frame List.suffix_rfl (meets_mineComptokens proof unminted unsent))
  rintro result mined ⟨grown, reply, rfl, unsent, mints⟩
  cases truthy : reply.error?.truthy with
  | true => simp [truthy, localWp]
  | false =>
      simp only [truthy, Bool.false_eq_true, if_false]
      rw [localWp_bind]
      apply meets_joined
      have unsent' : transferSent (afterTurn mined) = false := unsent
      apply localWp_mono _ (localWp_frame List.suffix_rfl
        (meets_processFees submission.recipient submission.fee unsent'))
      rintro result paid ⟨grown', pays⟩
      cases result with
      | error thrown => exact nofun
      | ok transferred =>
          cases falsy : transferred.error?.truthy with
          | true => simp [falsy, localWp]
          | false =>
              simp only [falsy, Bool.false_eq_true, if_false]
              intro _
              have later : mined <:+ paid := ((List.suffix_cons _ _).trans (List.suffix_cons _ _)).trans grown'
              have turned : paid <:+ afterTurn paid := (List.suffix_cons _ _).trans (List.suffix_cons _ _)
              apply paid_of_minted builds (((grown.trans later).trans turned).subset low)
              · rcases mints truthy with isMinted | isHushed
                · exact .inl (isMinted.later (later.trans turned))
                · exact .inr (hushed_later isHushed (later.trans turned))
              · intro due
                rcases pays transferred rfl falsy due with ⟨amount, signature, converted, member⟩ | isHushed
                · exact .inl ⟨amount, signature, converted, turned.subset member⟩
                · exact .inr (hushed_later isHushed turned)

/-- A reply of success follows the payment or a silent failure, and the service mints once for it. -/
theorem meets_submitProof (service : RpcService) (submission : Submission) (unminted : minted history = false)
    (unsent : transferSent history = false) :
    Meets (service.submitProof submission) (fun result later => result = .ok (.result true) →
      PaidFor service submission later ∨ hushed later = true) history := by
  rw [submitProof_eq, Meets]
  apply localWp_bind_of (meets_verifyProof service submission unminted unsent)
  · exact fun _ _ _ => nofun
  · rintro verified later ⟨unminted, unsent, proves⟩
    cases verified with
    | error message => exact nofun
    | result proof =>
        obtain ⟨builds, low⟩ := proves proof rfl
        exact meets_mineAndPay builds low unminted unsent

/-- A poll neither mints nor pays. -/
def RpcCall.Unpaid : RpcCall → Prop
  | .submitMiningProof _ => False
  | .sendAndConfirmTransaction _ _ => False
  | _ => True

theorem accepts_unpaid : Async.Accepts mintsOnce RpcCall.Unpaid := by
  intro history event call asks unpaid
  have quiet : RpcEvent.mints event = false ∧ RpcEvent.sendsTransfer event = false := by
    cases event with
    | started task => cases asks
    | called other answer => exact ⟨rfl, rfl⟩
    | issued other =>
        obtain rfl := Option.some.inj asks
        refine ⟨rfl, ?_⟩
        cases other with
        | sendAndConfirmTransaction recipient amount => exact unpaid.elim
        | _ => rfl
    | answered other answer =>
        obtain rfl := Option.some.inj asks
        refine ⟨?_, rfl⟩
        cases other with
        | submitMiningProof proof => exact unpaid.elim
        | _ => rfl
  exact mintsOnce_of_quiet quiet.1 quiet.2

theorem unpaid_pollTick (interval : ℕ) : Makes RpcCall.Unpaid (pollTick interval) := by
  have turn : RpcCall.Unpaid .turn := trivial
  have collects : Makes RpcCall.Unpaid updateUserData := by
    refine Makes.attempt (Makes.bind ?_ fun _ => trivial) fun _ => trivial
    exact Makes.joined ⟨trivial, makes_ofExcept⟩ trivial
  have polls : Makes RpcCall.Unpaid pollMiningInfoOnce := by
    refine ⟨trivial, fun answer => ?_⟩
    apply (makes_ofExcept answer).bind
    intro miningInfo
    apply makes_load
    intro state
    split
    · refine ⟨trivial, fun _ _ => ?_⟩
      exact (collects.joined turn).bind fun _ => trivial
    · trivial
  apply (polls.joined turn).bind
  intro finished
  cases finished with
  | false => trivial
  | true => exact fun _ => trivial

/-- Every task of the service mints once, and a reply of success is the reply to a paid submission. -/
theorem meets_returning (service : RpcService) (task : RpcTask) :
    Meets (service.returning task) (fun result later => result = .ok (some (.result true)) →
      ∀ submission, task = .submitProof submission → PaidFor service submission later ∨ hushed later = true)
      [.started task] := by
  cases task with
  | pollMiningInfo => exact fun _ => nofun
  | tick interval =>
      rw [RpcService.returning, Meets, localWp_bind]
      apply localWp_mono _ (localWp_of_makes accepts_unpaid (unpaid_pollTick interval) List.suffix_rfl)
      intro result later _
      cases result with
      | error thrown => exact nofun
      | ok done => exact nofun
  | submitProof submission =>
      rw [RpcService.returning, Meets, localWp_bind]
      apply localWp_mono _ (meets_submitProof service submission rfl rfl)
      intro result later pays
      cases result with
      | error thrown => exact nofun
      | ok reply =>
          intro same other equal
          cases equal
          obtain rfl := Option.some.inj (Except.ok.inj same)
          exact pays rfl

end Submission

section Interleavings

variable {service : RpcService} {initial : RpcState}
  {system : System RpcState RpcAnswer Thrown (Option (Reply Bool)) RpcTask}

/-- A thread that has replied with success has paid for its submission, or one of its chain requests has failed
silently. -/
theorem paid_of_follows {submission : Submission} {events : RpcHistory}
    (follows : Follows (service.replies.program (.submitProof submission)) events
      (.ended (.ok (some (.result true))))) :
    PaidFor service submission (events.reverse ++ [.started (.submitProof submission)]) ∨
      hushed (events.reverse ++ [.started (.submitProof submission)]) = true :=
  follows.localPost (fun _ _ => trivial) (meets_returning service (.submitProof submission)) rfl submission rfl

/-- In every interleaving each mint and each transfer has a thread of its own. -/
theorem mints_nodup (reached : Reachable service.replies initial system) :
    ((system.trace.filter fun pair => RpcEvent.mints pair.2).map Prod.fst).Nodup ∧
      ((system.trace.filter fun pair => RpcEvent.sendsTransfer pair.2).map Prod.fst).Nodup := by
  have starts : ∀ task, mintsOnce [] (.started task) ∧
      localWp (fun _ _ => True) mintsOnce (service.replies.program task) (fun _ _ => True) [.started task] := by
    intro task
    exact ⟨mintsOnce_of_quiet rfl rfl, localWp_mono (fun _ _ _ => trivial) (meets_returning service task)⟩
  have accepted := reached.locally_accepted (fun _ => trivial) starts
  constructor
  · exact nodup_threads_of_accepted (accepted.mono fun _ _ _ once => once.1)
  · exact nodup_threads_of_accepted (accepted.mono fun _ _ _ once => once.2)

end Interleavings

end ComptoMiningPool
