import ComptoMiningPool.Rpc.Payout

/-
This file proves how the payouts relate to the mints, in one submission and in all interleavings.
-/

namespace ComptoMiningPool

open JavaScript Async

/-- A silent step ends a minting with an error that counts as false. The first mint of a full
account does not end it. -/
def SilentStep (history : RpcHistory) : (call : RpcCall) → RpcAnswer call → Prop
  | .submitMiningProof _, .error thrown => Silent thrown ∧
      (thrown.errorCode ≠ some capacityExceeded ∨ 1 < history.countP RpcEvent.asksMint)
  | .fetchUserData, .error thrown => Silent thrown
  | .resizeUserDataAccount _, .error thrown => Silent thrown
  | _, _ => False

/-- The chain admits every answer that is no silent step of its own submission. -/
def audible (me : Nat) (_ : RpcState) (trace : Trace RpcAnswer RpcTask) (call : RpcCall)
    (answer : RpcAnswer call) : Prop := ¬ SilentStep (own me trace) call answer

/-- Each thread sends its transfer after its own mint, and it sends one. -/
def payoutContract : Contract RpcState RpcAnswer RpcTask where
  admits := audible
  monitor trace me event := RpcEvent.sendsTransfer event = true →
    (∃ event', (me, event') ∈ trace ∧ RpcEvent.mints event' = true) ∧
      ∀ event', (me, event') ∈ trace → RpcEvent.sendsTransfer event' = false
  rely _ _ := True
  invariant _ _ := True

section Rules

variable {V : Type} {me : Nat} {post : Post RpcState RpcAnswer Thrown V RpcTask} {state : RpcState}
  {trace : Trace RpcAnswer RpcTask}

/-- A call other than the transfer needs nothing from the monitor. -/
theorem wp_await_of_quiet {call : RpcCall} {next : RpcAnswer call → RpcProgram V}
    (quiet : RpcEvent.sendsTransfer (.issued call) = false)
    (continues : ∀ state' trace' answer, own me trace' = .issued call :: own me trace →
      ¬ SilentStep (own me trace') call answer →
      wp payoutContract me (next answer) post state' ((me, .answered call answer) :: trace')) :
    wp payoutContract me (.await call next) post state trace := by
  refine ⟨fun sends => ?_, trivial, ?_⟩
  · rw [quiet] at sends
    cases sends
  · intro state' trace' _ extension _ answer admitted
    refine ⟨fun sends => absurd sends Bool.false_ne_true, ?_⟩
    apply continues
    · rw [extension.own_eq, own_cons_self]
    · exact admitted

/-- The postcondition still holds after one more turn. -/
def Settles (me : Nat) (post : Post RpcState RpcAnswer Thrown V RpcTask) :
    Post RpcState RpcAnswer Thrown V RpcTask :=
  fun result _ trace => ∀ state' trace', own me trace' = afterTurn (own me trace) →
    post result state' trace'

theorem wp_join {program : RpcProgram V}
    (holds : wp payoutContract me program (Settles me post) state trace) :
    wp payoutContract me (program.joined .turn) post state trace := by
  rw [wp_joined]
  apply wp_mono _ holds
  intro result state trace settles
  apply wp_await_of_quiet rfl
  intro state' trace' answer extended _
  rw [wp_ofExcept]
  apply settles
  rw [own_cons_self, extended]
  rfl

theorem wp_try {fn : RpcProgram V} {post : Post RpcState RpcAnswer Thrown (Logged V) RpcTask}
    (holds : wp payoutContract me fn (Settles me fun result => post (.ok (logged result))) state trace) :
    wp payoutContract me (tryWithLog fn) post state trace := by
  unfold tryWithLog
  rw [wp_attempt, wp_bind]
  apply wp_join
  apply wp_mono _ holds
  intro result state trace settles state' trace' extended
  cases result <;> exact settles state' trace' extended

/-- One request that is no transfer returns what the chain answers. -/
theorem wp_request {call : RpcCall} {result : RpcAnswer call → Except Thrown V}
    (quiet : RpcEvent.sendsTransfer (.issued call) = false)
    (continues : ∀ state' trace' answer,
      own me trace' = .answered call answer :: .issued call :: own me trace →
      ¬ SilentStep (.issued call :: own me trace) call answer → post (result answer) state' trace') :
    wp payoutContract me ((Program.awaiting call).bind fun answer => .ofExcept (result answer)) post
      state trace := by
  apply wp_await_of_quiet quiet
  intro state' trace' answer extended audible
  show wp payoutContract me (Program.ofExcept (result answer)) post state' _
  rw [wp_ofExcept]
  apply continues
  · rw [own_cons_self, extended]
  · rwa [← extended]

end Rules

section Submission

variable {me : Nat} {state : RpcState} {trace : Trace RpcAnswer RpcTask}

theorem truthy_of_not_silent {thrown : Thrown} (loud : ¬ Silent thrown) :
    (loggedError thrown).truthy = true := by
  simpa [Silent] using loud

/-- The facts about one submission that its later steps need. -/
def Progress (me : Nat) (trace : Trace RpcAnswer RpcTask) (asked : ℕ) (mint : Bool) : Prop :=
  (own me trace).countP RpcEvent.asksMint = asked ∧ transferSent (own me trace) = false ∧
    (mint = true → minted (own me trace) = true)

theorem wp_increaseUserDataCapacity (additionalCapacity : ℕ) {asked : ℕ}
    (progress : Progress me trace asked false) :
    wp payoutContract me (increaseUserDataCapacity additionalCapacity)
      (fun result _ trace => Progress me trace asked false ∧ ∃ reply, result = .ok reply ∧
        ((∃ signature, reply = .result signature) ∨ reply.error?.truthy = true)) state trace := by
  unfold increaseUserDataCapacity
  simp only [Program.bind_eq, wp_bind]
  apply wp_join
  apply wp_try
  apply wp_request rfl
  intro state₁ trace₁ answer₁ extended₁ audible₁ state₂ trace₂ extended₂ state₃ trace₃ extended₃
  have progress₃ : Progress me trace₃ asked false := by
    unfold Progress
    rw [extended₃, extended₂, extended₁]
    simpa [RpcEvent.asksMint, RpcEvent.sendsTransfer, Progress] using progress
  cases answer₁ with
  | error thrown => exact ⟨progress₃, _, rfl, .inr (truthy_of_not_silent audible₁)⟩
  | ok capacity =>
      show wp payoutContract me
        (((tryWithLog (resizeUserDataAccount (capacity + additionalCapacity))).joined .turn).bind
          fun resizeResult => .done resizeResult.reply) _ state₃ trace₃
      rw [wp_bind]
      apply wp_join
      apply wp_try
      apply wp_request rfl
      intro state₄ trace₄ answer₄ extended₄ audible₄ state₅ trace₅ extended₅ state₆ trace₆ extended₆
      have progress₆ : Progress me trace₆ asked false := by
        unfold Progress
        rw [extended₆, extended₅, extended₄]
        simpa [RpcEvent.asksMint, RpcEvent.sendsTransfer, Progress] using progress₃
      cases answer₄ with
      | error thrown => exact ⟨progress₆, _, rfl, .inr (truthy_of_not_silent audible₄)⟩
      | ok signature => exact ⟨progress₆, _, rfl, .inl ⟨signature, rfl⟩⟩

/-- One request for a mint, with its retry or without. -/
theorem wp_submitMiningProof (proof : ComptokenProof) {asked : ℕ} {post : Post RpcState RpcAnswer Thrown
      (Logged String) RpcTask} (progress : Progress me trace asked false)
    (continues : ∀ state' trace' answer, Progress me trace' (asked + 1) answer.isOk →
      (∀ thrown, answer = .error thrown → Silent thrown →
        thrown.errorCode = some capacityExceeded ∧ asked = 0) →
      post (.ok (logged answer)) state' trace') :
    wp payoutContract me ((tryWithLog (submitMiningProof proof)).joined .turn) post state trace := by
  apply wp_join
  apply wp_try
  apply wp_request rfl
  intro state₁ trace₁ answer₁ extended₁ audible₁ state₂ trace₂ extended₂ state₃ trace₃ extended₃
  apply continues
  · unfold Progress
    rw [extended₃, extended₂, extended₁]
    obtain ⟨count, unsent, _⟩ := progress
    cases answer₁ <;>
      simp [List.countP_cons, RpcEvent.asksMint, RpcEvent.sendsTransfer, RpcEvent.mints, count, unsent,
        Except.isOk, Except.toBool]
  · rintro thrown rfl silent
    simp only [SilentStep, not_and, not_or, List.countP_cons, RpcEvent.asksMint, progress.1] at audible₁
    have later := audible₁ silent
    simp at later
    exact later

theorem wp_mineComptokens (proof : ComptokenProof) (progress : Progress me trace 0 false) :
    wp payoutContract me (mineComptokens proof)
      (fun result _ trace => ∃ reply, result = .ok reply ∧ ∃ asked,
        Progress me trace asked (!reply.error?.truthy)) state trace := by
  unfold mineComptokens
  simp only [Program.bind_eq, wp_bind]
  apply wp_submitMiningProof proof progress
  intro state₁ trace₁ answer progress₁ loud
  cases answer with
  | ok signature => exact ⟨_, rfl, 1, progress₁⟩
  | error thrown => 
      simp only [logged]
      by_cases exceeded : thrown.errorCode = some capacityExceeded
      · simp only [exceeded, if_true, wp_bind]
        apply wp_join
        apply wp_mono _ (wp_increaseUserDataCapacity 100 progress₁)
        rintro result state₂ trace₂ ⟨progress₂, reply, rfl, replied⟩ state₃ trace₃ extended
        have progress₃ : Progress me trace₃ 1 false := by
          unfold Progress
          rw [extended]
          simpa [Progress] using progress₂
        rcases replied with ⟨signature, rfl⟩ | truthy
        · show wp payoutContract me (((tryWithLog (submitMiningProof proof)).joined .turn).bind
            fun retried => .done retried.reply) _ state₃ trace₃
          rw [wp_bind]
          apply wp_submitMiningProof proof progress₃
          intro state₄ trace₄ retried progress₄ loud₄
          cases retried with
          | ok signature => exact ⟨_, rfl, 2, progress₄⟩
          | error thrown =>
              have notSilent : ¬ Silent thrown := fun silent => absurd (loud₄ thrown rfl silent).2 (by decide)
              refine ⟨_, rfl, 2, ?_⟩
              rw [logged, Logged.reply, Reply.error?, truthy_of_not_silent notSilent]
              exact progress₄
        · cases reply with
          | result signature => cases truthy
          | error message =>
              refine ⟨_, rfl, 1, ?_⟩
              rw [truthy]
              exact progress₃
      · simp only [exceeded, if_false]
        have notSilent : ¬ Silent thrown := fun silent => exceeded (loud thrown rfl silent).1
        refine ⟨_, rfl, 1, ?_⟩
        rw [Reply.error?, truthy_of_not_silent notSilent]
        exact progress₁

/-- A transfer after a mint is the only one of its submission. -/
theorem wp_processFees (recipient : String) (fee : Number) {asked : ℕ}
    (progress : Progress me trace asked true) :
    wp payoutContract me (processFees recipient fee) (fun _ _ _ => True) state trace := by
  unfold processFees
  cases validFee fee with
  | false => trivial
  | true =>
      cases Number.le (userPayoutAmount fee) 0 with
      | true => trivial
      | false =>
          cases (userPayoutAmount fee).toBigInt with
          | none => trivial
          | some amount =>
              show wp payoutContract me ((createTransferInstruction recipient amount).bind fun _ =>
                ((tryWithLog (sendAndConfirmTransaction recipient amount)).joined .turn).bind
                  fun transferred => .done transferred.reply) _ state trace
              rw [wp_bind]
              apply wp_request rfl
              intro state₁ trace₁ built extended _
              cases built with
              | error thrown => trivial
              | ok done =>
                  rw [wp_bind]
                  apply wp_join
                  apply wp_try
                  refine ⟨fun _ => ?_, trivial, ?_⟩
                  · have paid : minted (own me trace₁) = true ∧ transferSent (own me trace₁) = false := by
                      rw [extended]
                      simpa [RpcEvent.mints, RpcEvent.sendsTransfer] using ⟨progress.2.2 rfl, progress.2.1⟩
                    obtain ⟨isMinted, unsent⟩ := paid
                    constructor
                    · obtain ⟨event, member, mints⟩ := List.any_eq_true.mp isMinted
                      exact ⟨event, mem_own.mp member, mints⟩
                    · intro event member
                      have quiet := List.any_eq_false.mp unsent event (mem_own.mpr member)
                      simpa using quiet
                  · intro state₂ trace₂ _ _ _ answer _
                    refine ⟨fun sends => absurd sends Bool.false_ne_true, ?_⟩
                    show wp payoutContract me (Program.ofExcept answer) _ state₂ _
                    rw [wp_ofExcept]
                    intro state₃ trace₃ _ state₄ trace₄ _
                    trivial

theorem wp_verifyProof (service : RpcService) (extraData : Bytes) (nonce version timestamp : Number)
    (pubkey : Bytes) (progress : Progress me trace 0 false) :
    wp payoutContract me (service.verifyProof extraData nonce version timestamp pubkey)
      (fun _ _ trace => Progress me trace 0 false) state trace := by
  have called : ∀ {trace : Trace RpcAnswer RpcTask} {call : RpcCall} {answer : RpcAnswer call},
      Progress me trace 0 false → Progress me ((me, .called call answer) :: trace) 0 false := by
    intro trace call answer before
    simpa [Progress, RpcEvent.asksMint, RpcEvent.sendsTransfer] using before
  unfold RpcService.verifyProof
  simp only [Program.bind_eq, Program.load, Program.bind, wp]
  cases state.blockHash with
  | none => exact progress
  | some recentBlockHash =>
      simp only [Program.perform, Program.bind, wp]
      intro constructed _
      refine ⟨fun sends => absurd sends Bool.false_ne_true, ?_⟩
      cases constructed with
      | error thrown => exact called progress
      | ok built =>
          intro compared _
          refine ⟨fun sends => absurd sends Bool.false_ne_true, ?_⟩
          cases compared with
          | error thrown => exact called (called progress)
          | ok lower => cases lower <;> exact called (called progress)

/-- A submission that starts without events of its own meets its contract. -/
theorem wp_submitProof (service : RpcService) (submission : Submission)
    (progress : Progress me trace 0 false) :
    wp payoutContract me (service.submitProof submission) (fun _ _ _ => True) state trace := by
  rw [submitProof_eq, wp_bind]
  apply wp_mono _ (wp_verifyProof service _ _ _ _ _ progress)
  intro result state₁ trace₁ progress₁
  match result with
  | .error thrown => trivial
  | .ok (.error message) => trivial
  | .ok (.result proof) =>
      show wp payoutContract me (mineAndPay proof submission.recipient submission.fee) _ state₁ trace₁
      unfold mineAndPay
      simp only [Program.bind_eq, wp_bind]
      apply wp_join
      apply wp_mono _ (wp_mineComptokens proof progress₁)
      rintro result state₂ trace₂ ⟨reply, rfl, asked, progress₂⟩ state₃ trace₃ extended
      cases truthy : reply.error?.truthy with
      | true => simp [truthy, wp]
      | false =>
          rw [truthy] at progress₂
          have progress₃ : Progress me trace₃ asked true := by
            unfold Progress
            rw [extended]
            simpa [Progress] using progress₂
          simp only [truthy, Bool.false_eq_true, if_false, wp_bind]
          apply wp_join
          apply wp_mono _ (wp_processFees submission.recipient submission.fee progress₃)
          rintro (thrown | fees) state₄ trace₄ _ state₅ trace₅ _
          · trivial
          · simp only
            cases fees.error?.truthy <;> trivial

/-- A poll never sends a transfer. -/
theorem wp_pollMiningInfoOnce :
    wp payoutContract me pollMiningInfoOnce (fun _ _ _ => True) state trace := by
  unfold pollMiningInfoOnce getMiningInfo
  simp only [Program.bind_eq]
  rw [wp_bind]
  apply wp_request rfl
  intro state₁ trace₁ answer _ _
  cases answer with
  | error thrown => trivial
  | ok miningInfo =>
      by_cases known : state₁.blockHash = some miningInfo
      · simp [Program.load, Program.bind, wp, known]
      · simp only [Program.load, Program.bind, wp, ne_eq, known, not_false_eq_true, if_true,
          Program.perform, Program.modify]
        intro _ _
        refine ⟨fun sends => absurd sends Bool.false_ne_true, trivial, ?_⟩
        rw [wp_bind]
        apply wp_join
        apply wp_try
        apply wp_request rfl
        intros
        intro state₃ trace₃ _ state₄ trace₄ _
        trivial

theorem wp_pollTick (interval : ℕ) :
    wp payoutContract me (pollTick interval) (fun _ _ _ => True) state trace := by
  unfold pollTick
  simp only [Program.bind_eq, wp_bind]
  apply wp_join
  apply wp_mono _ wp_pollMiningInfoOnce
  rintro (thrown | finished) state₁ trace₁ _ state₂ trace₂ _
  · trivial
  · cases finished with
    | false => trivial
    | true => exact ⟨trivial, trivial⟩

end Submission

/-- The contract holds for every number of polls, ticks, and submissions. -/
theorem payoutContract_proved (service : RpcService) (initial : RpcState) :
    payoutContract.Proved (service.semantics audible) initial where
  sameAnswers := rfl
  relyRefl _ := trivial
  relyTrans _ _ _ _ _ := trivial
  initially := trivial
  starts := by
    intro state trace me task _ _ fresh
    refine ⟨fun sends => absurd sends Bool.false_ne_true, ?_⟩
    have none : own me trace = [] := by
      apply List.eq_nil_iff_forall_not_mem.mpr
      intro event member
      exact fresh event (mem_own.mp member)
    cases task with
    | pollMiningInfo => exact ⟨trivial, trivial⟩
    | tick interval => exact wp_pollTick interval
    | submitProof submission =>
        show wp payoutContract me ((service.submitProof submission).bind fun _ => .done ()) _ state _
        rw [wp_bind]
        have progress : Progress me ((me, .started (.submitProof submission)) :: trace) 0 false := by
          simp [Progress, none, transferSent, RpcEvent.asksMint, RpcEvent.sendsTransfer]
        apply wp_mono _ (wp_submitProof service submission progress)
        intro result _ _ _
        cases result <;> trivial
  disturbed _ _ _ _ impossible := impossible.elim

def mintCount (trace : Trace RpcAnswer RpcTask) : ℕ := trace.countP fun pair => RpcEvent.mints pair.2

def transferCount (trace : Trace RpcAnswer RpcTask) : ℕ :=
  trace.countP fun pair => RpcEvent.sendsTransfer pair.2

/-- One submission pays for a mint exactly when no silent failure decides it, and without silent
steps no interleaving sends more transfers than it mints. -/
theorem payouts_bounded_by_mints (service : RpcService) :
    (∀ submission (outcomes : ChainOutcomes) state,
      PaysForMint submission.fee ((service.submitProof submission).run outcomes.environment state []) ↔
        ¬ outcomes.HiddenFailure state submission.fee) ∧
    ∀ initial system, Reachable (service.semantics audible) initial system →
      transferCount system.trace ≤ mintCount system.trace := by
  constructor
  · exact submitProof_paysForMint_iff service
  · intro initial system reached
    apply countP_le_of_accepted
    exact ((payoutContract_proved service initial).reachable reached).2

/-- A fee below the mined amount leaves a payout that converts to a big integer. -/
theorem sendsPayout_of_lt {outcomes : ChainOutcomes} {fee : ℕ} (less : fee < 10000)
    (built : outcomes.build = .ok ()) : outcomes.sendsPayout (.ofNat fee) = true := by
  have amount : userPayoutAmount (.ofNat fee) = .finite ((10000 - fee : ℕ) : ℚ) := by
    calc userPayoutAmount (.ofNat fee) = Number.ofRat ((10000 : ℕ) - (fee : ℚ)) := rfl
      _ = Number.ofRat ((10000 - fee : ℕ) : ℚ) := by rw [Nat.cast_sub less.le]
      _ = .ofNat (10000 - fee) := Number.ofRat_natCast (by omega)
  have cast : (fee : ℚ) ≤ 10000 := by exact_mod_cast less.le
  have positive : ¬ ((10000 - fee : ℕ) : ℚ) ≤ 0 := by
    rw [not_le, Nat.cast_pos]
    omega
  have valid : validFee (.ofNat fee) = true := by
    show (decide ((0 : ℕ) ≤ (fee : ℚ)) && decide ((fee : ℚ) ≤ (10000 : ℕ))) = true
    simpa using cast
  have due : Number.le (userPayoutAmount (.ofNat fee)) 0 = false := by
    rw [amount]
    show decide (((10000 - fee : ℕ) : ℚ) ≤ (0 : ℕ)) = false
    simpa using positive
  have integral : (userPayoutAmount (.ofNat fee)).toBigInt.isSome := by
    rw [amount]
    simp [Number.toBigInt]
  simp [ChainOutcomes.sendsPayout, valid, due, integral, built, Except.isOk, Except.toBool]

/-- The first step of one submission waits for its mint. -/
theorem payouts_bounded_by_mints_waiting :
    ∃ system : System RpcState RpcAnswer Thrown Unit RpcTask, system.threads.length = 1 ∧
      transferCount system.trace ≤ mintCount system.trace := by
  let service : RpcService := ⟨List.replicate 32 7, "devnet"⟩
  let submission : Submission := ⟨List.replicate 32 3, 0, 0, 0, "miner", 100⟩
  let state : RpcState := { blockHash := some (List.replicate 32 1) }
  have segment : ∃ thread trace, Segment (service.semantics audible) 0
      (service.program (.submitProof submission)) state [(0, .started (.submitProof submission))]
      thread state trace :=
    ⟨_, _, .read (.call (.ok ()) (fun impossible => impossible)
      (.call (.ok true) (fun impossible => impossible) .await))⟩
  obtain ⟨thread, trace, segment⟩ := segment
  have step : Step (service.semantics audible) ⟨state, [], []⟩ ⟨state, trace, [thread]⟩ :=
    .start (.submitProof submission) trivial segment
  exact ⟨_, rfl, (payouts_bounded_by_mints service).2 _ _ (.single step)⟩

/-- An empty error message lets a transfer pass without a mint. -/
theorem submitProof_pays_without_mint :
    ¬ PaysForMint 100 ((RpcService.submitProof ⟨List.replicate 32 7, "devnet"⟩
      ⟨List.replicate 32 3, 0, 0x20000000, 0, "miner", 100⟩).run
        (ChainOutcomes.environment ⟨.ok (), .ok true, .error (.error ""), .ok 0, .ok "resize",
          .ok "remint", .ok (), .ok "transfer"⟩)
        { blockHash := some (List.replicate 32 1) } []) := by
  apply (submitProof_paysForMint_iff _ _ _ _).not.mpr
  rw [not_not]
  refine ⟨⟨by simp, rfl, rfl⟩, .inl ⟨⟨.error "", rfl, rfl⟩, .inl ?_⟩⟩
  exact sendsPayout_of_lt (by decide) rfl

/-- A due payout that is never sent has thrown before its transfer. -/
theorem payoutReply_throws {outcomes : ChainOutcomes} {fee : Number} (due : payoutDue fee = true)
    (unsent : outcomes.sendsPayout fee = false) :
    ∃ thrown, outcomes.payoutReply fee = .error thrown := by
  unfold payoutDue at due
  unfold ChainOutcomes.sendsPayout at unsent
  unfold ChainOutcomes.payoutReply
  rw [Bool.not_eq_true'] at due
  cases valid : validFee fee with
  | false => exact ⟨_, rfl⟩
  | true =>
      cases amount : (userPayoutAmount fee).toBigInt with
      | none => exact ⟨_, by simp [due]; rfl⟩
      | some value =>
          cases build : outcomes.build with
          | error thrown => exact ⟨thrown, by simp [due]⟩
          | ok built => simp [valid, due, amount, build, Except.isOk, Except.toBool] at unsent

/-- A run that is all or nothing mints only when it also pays and reports success. -/
def AllOrNothing (run : Program.Run RpcState RpcAnswer RpcTask Thrown (Reply Bool)) : Prop :=
  (run.result ≠ .ok (.result true) → minted run.history = false) ∧
    (minted run.history = true → transferred run.history = true)

/-- A chain whose failures are loud never throws a silent value from a mint or a transfer. -/
def ChainOutcomes.Loud (outcomes : ChainOutcomes) : Prop :=
  ∀ thrown, outcomes.mintFailure = some thrown ∨ outcomes.send = .error thrown → ¬ Silent thrown

end ComptoMiningPool
