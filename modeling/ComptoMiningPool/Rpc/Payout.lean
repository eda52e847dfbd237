import ComptoMiningPool.Rpc.Service

/-
This file proves when a submission pays, when it mints, and what its reply says about both.
-/

namespace ComptoMiningPool

open JavaScript Async

/-- The outcome of every external call that one submission can make. -/
structure ChainOutcomes where
  construct : Except Thrown Unit
  isLower : Except Thrown Bool
  mint : Except Thrown String
  fetch : Except Thrown ℕ
  resize : Except Thrown String
  remint : Except Thrown String
  build : Except Thrown Unit
  send : Except Thrown String

/-- The part of a submission that follows a verified proof. -/
def mineAndPay (proof : ComptokenProof) (recipient : String) (fee : Number) : RpcProgram (Reply Bool) := do
  let mineResult ← (mineComptokens proof).joined .turn
  if mineResult.error?.truthy then pure (.error mineResult.error?)
  else
    let processFeesResult ← (processFees recipient fee).joined .turn
    if processFeesResult.error?.truthy then pure (.error processFeesResult.error?)
    else pure (.result true)

theorem submitProof_eq (service : RpcService) (submission : Submission) :
    service.submitProof submission =
      (service.verifyProof submission.extraData submission.nonce submission.version
        submission.timestamp service.publicKey).bind fun
        | .error message => .done (.error message)
        | .result proof => mineAndPay proof submission.recipient submission.fee := rfl

abbrev RpcEvent := Event RpcAnswer RpcTask

abbrev RpcHistory := History RpcAnswer RpcTask

namespace RpcEvent

def asksMint : RpcEvent → Bool
  | .issued (.submitMiningProof _) => true
  | _ => false

def mints : RpcEvent → Bool
  | .answered (.submitMiningProof _) (.ok _) => true
  | _ => false

def sendsTransfer : RpcEvent → Bool
  | .issued (.sendAndConfirmTransaction _ _) => true
  | _ => false

def transfers : RpcEvent → Bool
  | .answered (.sendAndConfirmTransaction _ _) (.ok _) => true
  | _ => false

end RpcEvent

namespace ChainOutcomes

/-- The second request for a mint takes the outcome of the retry. -/
def environment (outcomes : ChainOutcomes) (history : RpcHistory) : (call : RpcCall) → RpcAnswer call
  | .constructProof _ => outcomes.construct
  | .isLowerThanTarget _ => outcomes.isLower
  | .submitMiningProof _ =>
      if history.countP RpcEvent.asksMint = 1 then outcomes.mint else outcomes.remint
  | .fetchUserData => outcomes.fetch
  | .resizeUserDataAccount _ => outcomes.resize
  | .createTransferInstruction _ _ => outcomes.build
  | .sendAndConfirmTransaction _ _ => outcomes.send
  | .syncValidBlockhashes => .ok []
  | .nextBlock _ => ()
  | .collect => .ok ()
  | .turn => ()

/-- The hash comparison accepts the submission. -/
def Verified (outcomes : ChainOutcomes) (state : RpcState) : Prop :=
  state.blockHash ≠ none ∧ outcomes.construct = .ok () ∧ outcomes.isLower = .ok true

/-- The thrown value that keeps the account at its capacity. -/
def capacityFailure (outcomes : ChainOutcomes) : Option Thrown :=
  match outcomes.fetch, outcomes.resize with
  | .error thrown, _ => some thrown
  | .ok _, .error thrown => some thrown
  | .ok _, .ok _ => none

/-- The thrown value that ends the minting. A full account fails only through its resize or its
retry. -/
def mintFailure (outcomes : ChainOutcomes) : Option Thrown :=
  match outcomes.mint with
  | .ok _ => none
  | .error thrown =>
      if thrown.errorCode = some capacityExceeded then
        match outcomes.capacityFailure, outcomes.remint with
        | some thrown, _ => some thrown
        | none, .error thrown => some thrown
        | none, .ok _ => none
      else some thrown

/-- The test of the error text lets a silent failure pass. -/
def passesMint (outcomes : ChainOutcomes) : Bool :=
  match outcomes.mintFailure with
  | some thrown => !(loggedError thrown).truthy
  | none => true

/-- A transfer is sent once its instruction is built for a positive amount. -/
def sendsPayout (outcomes : ChainOutcomes) (fee : Number) : Bool :=
  validFee fee && !Number.le (userPayoutAmount fee) 0 && (userPayoutAmount fee).toBigInt.isSome &&
    outcomes.build.isOk

/-- The reply after the minting has passed. -/
def payoutReply (outcomes : ChainOutcomes) (fee : Number) : Except Thrown (Reply Bool) :=
  if !validFee fee then .error (.error "Invalid fee rate")
  else if Number.le (userPayoutAmount fee) 0 then .ok (.result true)
  else if (userPayoutAmount fee).toBigInt.isNone then
    .error (.error "The number cannot be converted to a BigInt")
  else match outcomes.build, outcomes.send with
    | .error thrown, _ => .error thrown
    | .ok _, .ok _ => .ok (.result true)
    | .ok _, .error thrown =>
        .ok (if (loggedError thrown).truthy then .error (loggedError thrown) else .result true)

end ChainOutcomes

def minted (history : RpcHistory) : Bool := history.any RpcEvent.mints

def transferSent (history : RpcHistory) : Bool := history.any RpcEvent.sendsTransfer

def transferred (history : RpcHistory) : Bool := history.any RpcEvent.transfers

section Observations

variable (event : RpcEvent) (history : RpcHistory)

@[simp] theorem minted_cons : minted (event :: history) = (event.mints || minted history) := rfl

@[simp] theorem transferSent_cons :
    transferSent (event :: history) = (event.sendsTransfer || transferSent history) := rfl

@[simp] theorem transferred_cons :
    transferred (event :: history) = (event.transfers || transferred history) := rfl

end Observations

/-- The microtask after an asynchronous call leaves two events. -/
def afterTurn (history : RpcHistory) : RpcHistory := .answered .turn () :: .issued .turn :: history

section Turns

variable (history : RpcHistory)

@[simp] theorem minted_afterTurn : minted (afterTurn history) = minted history := by
  simp [afterTurn, RpcEvent.mints]

@[simp] theorem transferSent_afterTurn : transferSent (afterTurn history) = transferSent history := by
  simp [afterTurn, RpcEvent.sendsTransfer]

@[simp] theorem transferred_afterTurn : transferred (afterTurn history) = transferred history := by
  simp [afterTurn, RpcEvent.transfers]

@[simp] theorem countP_asksMint_afterTurn :
    (afterTurn history).countP RpcEvent.asksMint = history.countP RpcEvent.asksMint := by
  simp [afterTurn, RpcEvent.asksMint]

end Turns

theorem hasValue_of_truthy {value : Value} (truthy : value.truthy = true) : hasValue value = true := by
  unfold hasValue
  split
  · cases truthy
  · cases truthy
  · rfl

/-- A rejected proof has an error with a value. -/
theorem verifyProof_decided (service : RpcService) (extraData : Bytes) (nonce version timestamp : Number)
    (pubkey : Bytes) :
    Program.Returns RpcTask (fun reply => ∀ message, reply = .error message → hasValue message = true)
      (service.verifyProof extraData nonce version timestamp pubkey) := by
  intro environment state history reply returned
  unfold RpcService.verifyProof at returned
  simp only [Program.bind_eq, Program.load, Program.bind, Program.run] at returned
  cases current : state.blockHash with
  | none => simp [current, Program.run] at returned
  | some hash =>
      simp only [current, Program.perform, Program.bind, Program.run, Program.run_bind,
        Program.run_ofExcept] at returned
      split at returned
      · next constructed =>
          split at returned
          · next lower compared =>
              split at returned
              · obtain rfl := Except.ok.inj returned
                intro message same
                cases same
              · obtain rfl := Except.ok.inj returned
                intro message same
                cases same
                rfl
          · cases returned
      · cases returned

/-- A submission that returns has either paid or has an error with a value. -/
theorem submitProof_decided (service : RpcService) (submission : Submission) :
    Program.Returns RpcTask (fun reply => reply = .result true ∨ hasValue reply.error? = true)
      (service.submitProof submission) := by
  have anything : ∀ {α : Type} (program : RpcProgram α), Program.Returns RpcTask (fun _ => True) program :=
    fun _ _ _ _ _ _ => trivial
  rw [submitProof_eq]
  refine (verifyProof_decided service _ _ _ _ _).bind ?_
  intro reply rejected
  cases reply with
  | error message => exact Program.returns_done (Or.inr (rejected message rfl))
  | result proof =>
      refine (anything ((mineComptokens proof).joined .turn)).bind ?_
      intro mineResult _
      show Program.Returns RpcTask _ (if _ then _ else _)
      split
      · next failed => exact Program.returns_done (Or.inr (hasValue_of_truthy failed))
      · refine (anything ((processFees submission.recipient submission.fee).joined .turn)).bind ?_
        intro processFeesResult _
        show Program.Returns RpcTask _ (if _ then _ else _)
        split
        · next failed => exact Program.returns_done (Or.inr (hasValue_of_truthy failed))
        · exact Program.returns_done (Or.inl rfl)

section Runs

variable (outcomes : ChainOutcomes) (state : RpcState) (history : RpcHistory)

theorem run_joined_turn {α : Type} (program : RpcProgram α) :
    (program.joined RpcCall.turn).run outcomes.environment state history =
      let inner := program.run outcomes.environment state history
      ⟨inner.result, inner.state, afterTurn inner.history⟩ := by
  rw [Program.run_joined]
  rfl

/-- A logged call always returns, and it returns what the call returned or threw. -/
theorem run_tryWithLog {α : Type} (fn : RpcProgram α) :
    (tryWithLog fn).run outcomes.environment state history =
      let inner := fn.run outcomes.environment state history
      ⟨.ok (logged inner.result), inner.state, afterTurn inner.history⟩ := by
  rw [tryWithLog, Program.run_attempt, Program.run_bind, run_joined_turn]
  cases ended : (fn.run outcomes.environment state history).result <;> simp [ended, Program.run, logged]

@[simp] theorem run_submitMiningProof (proof : ComptokenProof) :
    (submitMiningProof proof).run outcomes.environment state history =
      let asked : RpcHistory := .issued (.submitMiningProof proof) :: history
      let answer := outcomes.environment asked (.submitMiningProof proof)
      ⟨answer, state, .answered (.submitMiningProof proof) answer :: asked⟩ := by
  simp [submitMiningProof, Program.awaiting, Program.bind, Program.run]

@[simp] theorem run_fetchUserData :
    fetchUserData.run outcomes.environment state history =
      ⟨outcomes.fetch, state, .answered .fetchUserData outcomes.fetch :: .issued .fetchUserData :: history⟩ := by
  simp [fetchUserData, Program.awaiting, Program.bind, Program.run, ChainOutcomes.environment]

@[simp] theorem run_resizeUserDataAccount (newCapacity : ℕ) :
    (resizeUserDataAccount newCapacity).run outcomes.environment state history =
      ⟨outcomes.resize, state, .answered (.resizeUserDataAccount newCapacity) outcomes.resize ::
        .issued (.resizeUserDataAccount newCapacity) :: history⟩ := by
  simp [resizeUserDataAccount, Program.awaiting, Program.bind, Program.run, ChainOutcomes.environment]

@[simp] theorem run_createTransferInstruction (recipient : String) (amount : ℤ) :
    (createTransferInstruction recipient amount).run outcomes.environment state history =
      ⟨outcomes.build, state, .answered (.createTransferInstruction recipient amount) outcomes.build ::
        .issued (.createTransferInstruction recipient amount) :: history⟩ := by
  simp [createTransferInstruction, Program.awaiting, Program.bind, Program.run,
    ChainOutcomes.environment]

@[simp] theorem run_sendAndConfirmTransaction (recipient : String) (amount : ℤ) :
    (sendAndConfirmTransaction recipient amount).run outcomes.environment state history =
      ⟨outcomes.send, state, .answered (.sendAndConfirmTransaction recipient amount) outcomes.send ::
        .issued (.sendAndConfirmTransaction recipient amount) :: history⟩ := by
  simp [sendAndConfirmTransaction, Program.awaiting, Program.bind, Program.run,
    ChainOutcomes.environment]

/-- The resize mints nothing and pays nothing. -/
theorem run_increaseUserDataCapacity (additionalCapacity : ℕ) :
    ∃ reply final, (increaseUserDataCapacity additionalCapacity).run outcomes.environment state history =
        ⟨.ok reply, state, final⟩ ∧
      (match outcomes.capacityFailure with
        | some thrown => reply = .error (loggedError thrown)
        | none => ∃ signature, reply = .result signature) ∧
      final.countP RpcEvent.asksMint = history.countP RpcEvent.asksMint ∧
      minted final = minted history ∧ transferSent final = transferSent history ∧
      transferred final = transferred history := by
  simp only [increaseUserDataCapacity, Program.bind_eq, Program.run_bind, run_joined_turn,
    run_tryWithLog, run_fetchUserData]
  cases fetch : outcomes.fetch with
  | error thrown =>
      refine ⟨_, _, rfl, ?_⟩
      simp [ChainOutcomes.capacityFailure, fetch, RpcEvent.asksMint, RpcEvent.mints,
        RpcEvent.sendsTransfer, RpcEvent.transfers]
  | ok capacity =>
      simp only [logged, Program.run_bind, run_joined_turn, run_tryWithLog, run_resizeUserDataAccount]
      refine ⟨_, _, rfl, ?_⟩
      cases resize : outcomes.resize <;>
        simp [ChainOutcomes.capacityFailure, fetch, resize, Logged.reply, RpcEvent.asksMint,
          RpcEvent.mints, RpcEvent.sendsTransfer, RpcEvent.transfers]

/-- The retry of a mint is the second request of its submission. -/
theorem run_mineComptokens (proof : ComptokenProof) {history : RpcHistory}
    (fresh : history.countP RpcEvent.asksMint = 0) :
    ∃ reply final, (mineComptokens proof).run outcomes.environment state history =
        ⟨.ok reply, state, final⟩ ∧
      reply.error? = outcomes.mintFailure.elim none loggedError ∧
      minted final = (minted history || outcomes.mintFailure.isNone) ∧
      transferSent final = transferSent history ∧ transferred final = transferred history := by
  have first : outcomes.environment (.issued (.submitMiningProof proof) :: history)
      (.submitMiningProof proof) = outcomes.mint := by
    simp [ChainOutcomes.environment, List.countP_cons, RpcEvent.asksMint, fresh]
  simp only [mineComptokens, Program.bind_eq, Program.run_bind, run_joined_turn, run_tryWithLog,
    run_submitMiningProof, first]
  cases mint : outcomes.mint with
  | ok signature =>
      refine ⟨_, _, rfl, ?_⟩
      simp [ChainOutcomes.mintFailure, mint, Reply.error?, RpcEvent.mints, RpcEvent.sendsTransfer,
        RpcEvent.transfers]
  | error thrown =>
      by_cases exceeded : thrown.errorCode = some capacityExceeded
      · obtain ⟨increased, middle, resized, reply, asked, sameMint, sameSent, sameTransfer⟩ :=
          run_increaseUserDataCapacity outcomes state (afterTurn (afterTurn
            (.answered (.submitMiningProof proof) (.error thrown) ::
              .issued (.submitMiningProof proof) :: history))) 100
        have second : outcomes.environment (.issued (.submitMiningProof proof) :: afterTurn middle)
            (.submitMiningProof proof) = outcomes.remint := by
          simp [ChainOutcomes.environment, List.countP_cons, RpcEvent.asksMint, asked, fresh]
        simp only [logged, exceeded, if_true, Program.run_bind, run_joined_turn, resized]
        cases failure : outcomes.capacityFailure with
        | some later =>
            rw [failure] at reply
            subst reply
            refine ⟨_, _, rfl, ?_⟩
            simp [ChainOutcomes.mintFailure, mint, exceeded, failure, Reply.error?, sameMint, sameSent,
              sameTransfer, RpcEvent.mints, RpcEvent.sendsTransfer, RpcEvent.transfers]
        | none =>
            rw [failure] at reply
            obtain ⟨signature, rfl⟩ := reply
            simp only [Program.run_bind, run_joined_turn, run_tryWithLog, run_submitMiningProof, second]
            refine ⟨_, _, rfl, ?_⟩
            cases remint : outcomes.remint <;>
              simp [ChainOutcomes.mintFailure, mint, exceeded, failure, remint, Reply.error?, logged,
                Logged.reply, sameMint, sameSent, sameTransfer, RpcEvent.mints,
                RpcEvent.sendsTransfer, RpcEvent.transfers]
      · simp only [logged, exceeded, if_false]
        refine ⟨_, _, rfl, ?_⟩
        simp [ChainOutcomes.mintFailure, mint, exceeded, Reply.error?, RpcEvent.mints,
          RpcEvent.sendsTransfer, RpcEvent.transfers]

/-- The payout mints nothing. It sends at most one transfer. -/
theorem run_processFees (recipient : String) (fee : Number) :
    ∃ result final, (processFees recipient fee).run outcomes.environment state history =
        ⟨result, state, final⟩ ∧
      result.map (fun reply =>
        if reply.error?.truthy then Reply.error reply.error? else .result true) =
          outcomes.payoutReply fee ∧
      minted final = minted history ∧
      transferSent final = (transferSent history || outcomes.sendsPayout fee) ∧
      transferred final = (transferred history || (outcomes.sendsPayout fee && outcomes.send.isOk)) := by
  unfold processFees ChainOutcomes.payoutReply ChainOutcomes.sendsPayout
  cases validFee fee with
  | false => exact ⟨_, history, rfl, rfl, rfl, by simp, by simp⟩
  | true =>
      cases Number.le (userPayoutAmount fee) 0 with
      | true => exact ⟨_, history, rfl, rfl, rfl, by simp, by simp⟩
      | false =>
          cases (userPayoutAmount fee).toBigInt with
          | none => exact ⟨_, history, rfl, rfl, rfl, by simp, by simp⟩
          | some amount =>
              cases build : outcomes.build with
              | error thrown =>
                  have ran : (createTransferInstruction recipient amount).run outcomes.environment state
                      history = ⟨.error thrown, state,
                        .answered (.createTransferInstruction recipient amount) (.error thrown) ::
                          .issued (.createTransferInstruction recipient amount) :: history⟩ := by
                    rw [run_createTransferInstruction, build]
                  simp only [Bool.not_true, Bool.false_eq_true, if_false, Program.bind_eq,
                    Program.run_bind, ran]
                  refine ⟨_, _, rfl, ?_⟩
                  simp [Except.map, Except.isOk, Except.toBool, RpcEvent.mints, RpcEvent.sendsTransfer,
                    RpcEvent.transfers]
              | ok built =>
                  have ran : (createTransferInstruction recipient amount).run outcomes.environment state
                      history = ⟨.ok built, state,
                        .answered (.createTransferInstruction recipient amount) (.ok built) ::
                          .issued (.createTransferInstruction recipient amount) :: history⟩ := by
                    rw [run_createTransferInstruction, build]
                  simp only [Bool.not_true, Bool.false_eq_true, if_false, Program.bind_eq,
                    Program.run_bind, ran, run_joined_turn, run_tryWithLog,
                    run_sendAndConfirmTransaction]
                  refine ⟨_, _, rfl, ?_⟩
                  cases send : outcomes.send <;>
                    simp [Except.map, Except.isOk, Except.toBool, logged, Logged.reply, Reply.error?,
                      Value.truthy, RpcEvent.mints, RpcEvent.sendsTransfer, RpcEvent.transfers]

/-- The comparison needs a block hash, a proof, and a hash below the target. -/
theorem run_verifyProof (service : RpcService) (extraData : Bytes) (nonce version timestamp : Number)
    (pubkey : Bytes) :
    (service.verifyProof extraData nonce version timestamp pubkey).run outcomes.environment state history =
      match state.blockHash with
      | none => ⟨.error (.error "Block hash must be set before mining comptokens"), state, history⟩
      | some recentBlockHash =>
          let proof : ComptokenProof :=
            { pubkey, recentBlockHash, extraData, nonce, version, timestamp, target := service.target }
          let built : RpcHistory := .called (.constructProof proof) outcomes.construct :: history
          let compared : RpcHistory := .called (.isLowerThanTarget proof) outcomes.isLower :: built
          match outcomes.construct, outcomes.isLower with
          | .error thrown, _ => ⟨.error thrown, state, built⟩
          | .ok _, .error thrown => ⟨.error thrown, state, compared⟩
          | .ok _, .ok true => ⟨.ok (.result proof), state, compared⟩
          | .ok _, .ok false => ⟨.ok (.error (some (.string "Difficulty too low"))), state, compared⟩ := by
  unfold RpcService.verifyProof
  cases current : state.blockHash with
  | none => simp [Program.load, Program.bind, Program.run, current]
  | some hash =>
      simp only [Program.bind_eq, Program.load, Program.bind, Program.run, current, Program.perform,
        ChainOutcomes.environment, Program.run_bind, Program.run_ofExcept]
      cases outcomes.construct with
      | error thrown => rfl
      | ok built =>
          cases outcomes.isLower with
          | error thrown => rfl
          | ok lower => cases lower <;> rfl

/-- A verified proof is mined first and paid only after the test of the mint reply. -/
theorem run_mineAndPay (proof : ComptokenProof) (recipient : String) (fee : Number) {history : RpcHistory}
    (fresh : history.countP RpcEvent.asksMint = 0) :
    ∃ final, (mineAndPay proof recipient fee).run outcomes.environment state history =
        ⟨if outcomes.passesMint then outcomes.payoutReply fee
          else .ok (.error (outcomes.mintFailure.elim none loggedError)), state, final⟩ ∧
      minted final = (minted history || outcomes.mintFailure.isNone) ∧
      transferSent final = (transferSent history || (outcomes.passesMint && outcomes.sendsPayout fee)) ∧
      transferred final = (transferred history ||
        (outcomes.passesMint && outcomes.sendsPayout fee && outcomes.send.isOk)) := by
  obtain ⟨reply, middle, mined, replied, isMinted, isSent, isTransferred⟩ :=
    run_mineComptokens outcomes state proof fresh
  have passing : outcomes.passesMint = !reply.error?.truthy := by
    rw [replied]
    unfold ChainOutcomes.passesMint
    cases outcomes.mintFailure <;> rfl
  simp only [mineAndPay, Program.bind_eq, Program.run_bind, run_joined_turn, mined]
  cases truthy : reply.error?.truthy with
  | true =>
      refine ⟨afterTurn middle, ?_, ?_⟩
      · simp [passing, truthy, ← replied, Program.run]
      · simp [passing, truthy, isMinted, isSent, isTransferred]
  | false =>
      obtain ⟨result, final, paid, settled, sameMint, nowSent, nowTransferred⟩ :=
        run_processFees outcomes state (afterTurn middle) recipient fee
      refine ⟨afterTurn final, ?_, ?_⟩
      · simp only [Bool.false_eq_true, if_false, Program.run_bind, run_joined_turn, paid, passing,
          truthy, Bool.not_false, if_true, ← settled]
        cases result with
        | error thrown => rfl
        | ok fees =>
            simp only [Except.map]
            cases fees.error?.truthy <;> rfl
      · simp [passing, truthy, sameMint, nowSent, nowTransferred, isMinted, isSent, isTransferred]

/-- A submission that its hash comparison rejects mints nothing and pays nothing. -/
theorem run_submitProof_of_rejected (service : RpcService) (submission : Submission)
    (rejected : ¬ outcomes.Verified state) :
    ∃ result final, (service.submitProof submission).run outcomes.environment state [] =
        ⟨result, state, final⟩ ∧ result ≠ .ok (.result true) ∧ minted final = false ∧
      transferSent final = false ∧ transferred final = false := by
  rw [submitProof_eq, Program.run_bind, run_verifyProof]
  cases current : state.blockHash with
  | none => exact ⟨_, _, rfl, by simp, rfl, rfl, rfl⟩
  | some hash =>
      cases construct : outcomes.construct with
      | error thrown => exact ⟨_, _, rfl, by simp, rfl, rfl, rfl⟩
      | ok built =>
          cases lower : outcomes.isLower with
          | error thrown => exact ⟨_, _, rfl, by simp, rfl, rfl, rfl⟩
          | ok below =>
              cases below with
              | true => exact absurd ⟨by simp [current], construct, lower⟩ rejected
              | false => exact ⟨_, _, rfl, by simp, rfl, rfl, rfl⟩

/-- A verified submission ends as its mint and its payout decide. -/
theorem run_submitProof_of_verified (service : RpcService) (submission : Submission)
    (verified : outcomes.Verified state) :
    ∃ final, (service.submitProof submission).run outcomes.environment state [] =
        ⟨if outcomes.passesMint then outcomes.payoutReply submission.fee
          else .ok (.error (outcomes.mintFailure.elim none loggedError)), state, final⟩ ∧
      minted final = outcomes.mintFailure.isNone ∧
      transferSent final = (outcomes.passesMint && outcomes.sendsPayout submission.fee) ∧
      transferred final =
        (outcomes.passesMint && outcomes.sendsPayout submission.fee && outcomes.send.isOk) := by
  obtain ⟨current, constructed, lower⟩ := verified
  obtain ⟨hash, found⟩ := Option.ne_none_iff_exists'.mp current
  rw [submitProof_eq, Program.run_bind, run_verifyProof]
  simp only [found, constructed, lower]
  apply run_mineAndPay
  rfl

end Runs

/-- A thrown value is silent when the text that stands for it counts as false. -/
def Silent (thrown : Thrown) : Prop := (loggedError thrown).truthy = false

def payoutDue (fee : Number) : Bool := !Number.le (userPayoutAmount fee) 0

/-- A run pays only after a mint, and it reports success only for a mint that it paid for. -/
def PaysForMint (fee : Number) (run : Program.Run RpcState RpcAnswer RpcTask Thrown (Reply Bool)) : Prop :=
  (transferSent run.history = true → minted run.history = true) ∧
    (run.result = .ok (.result true) → minted run.history = true ∧
      (transferred run.history = true ∨ payoutDue fee = false))

/-- A silent failure decides the run: the run passes it and then pays or reports success. -/
def ChainOutcomes.HiddenFailure (outcomes : ChainOutcomes) (state : RpcState) (fee : Number) : Prop :=
  outcomes.Verified state ∧
    ((∃ thrown, outcomes.mintFailure = some thrown ∧ Silent thrown) ∧
        (outcomes.sendsPayout fee = true ∨ validFee fee = true ∧ payoutDue fee = false) ∨
      outcomes.mintFailure = none ∧ outcomes.sendsPayout fee = true ∧
        ∃ thrown, outcomes.send = .error thrown ∧ Silent thrown)

theorem payoutReply_of_sendsPayout {outcomes : ChainOutcomes} {fee : Number}
    (sends : outcomes.sendsPayout fee = true) :
    outcomes.payoutReply fee = match outcomes.send with
      | .ok _ => .ok (.result true)
      | .error thrown =>
          .ok (if (loggedError thrown).truthy then .error (loggedError thrown) else .result true) := by
  unfold ChainOutcomes.sendsPayout at sends
  simp only [Bool.and_eq_true, Bool.not_eq_true'] at sends
  obtain ⟨⟨⟨valid, due⟩, integral⟩, built⟩ := sends
  unfold ChainOutcomes.payoutReply
  cases build : outcomes.build with
  | error thrown => rw [build] at built; cases built
  | ok done =>
      simp only [valid, due, Bool.not_true, Bool.false_eq_true, if_false,
        Option.isNone_eq_false_iff.mpr integral]
      cases outcomes.send <;> rfl

/-- Without a transfer the reply reports success only when no payout is due. -/
theorem payoutReply_of_not_sendsPayout {outcomes : ChainOutcomes} {fee : Number}
    (unsent : outcomes.sendsPayout fee = false) :
    outcomes.payoutReply fee = .ok (.result true) ↔ validFee fee = true ∧ payoutDue fee = false := by
  unfold ChainOutcomes.sendsPayout at unsent
  unfold ChainOutcomes.payoutReply payoutDue
  cases valid : validFee fee with
  | false => simp
  | true =>
      cases due : Number.le (userPayoutAmount fee) 0 with
      | true => simp
      | false =>
          cases amount : (userPayoutAmount fee).toBigInt with
          | none => simp
          | some value =>
              cases build : outcomes.build with
              | error thrown => simp
              | ok built => simp [valid, due, amount, build, Except.isOk, Except.toBool] at unsent

theorem payoutDue_of_sendsPayout {outcomes : ChainOutcomes} {fee : Number}
    (sends : outcomes.sendsPayout fee = true) : payoutDue fee = true := by
  unfold ChainOutcomes.sendsPayout at sends
  simp only [Bool.and_eq_true] at sends
  exact sends.1.1.2

/-- A single submission pays for a mint exactly when no silent failure decides it. -/
theorem submitProof_paysForMint_iff (service : RpcService) (submission : Submission)
    (outcomes : ChainOutcomes) (state : RpcState) :
    PaysForMint submission.fee ((service.submitProof submission).run outcomes.environment state []) ↔
      ¬ outcomes.HiddenFailure state submission.fee := by
  by_cases verified : outcomes.Verified state
  · obtain ⟨final, ran, isMinted, isSent, isTransferred⟩ :=
      run_submitProof_of_verified outcomes state service submission verified
    rw [ran]
    simp only [PaysForMint, ChainOutcomes.HiddenFailure, verified, true_and, isMinted, isSent,
      isTransferred, Silent]
    rcases failure : outcomes.mintFailure with _ | thrown
    · have passes : outcomes.passesMint = true := by simp [ChainOutcomes.passesMint, failure]
      simp only [passes, if_true]
      cases sends : outcomes.sendsPayout submission.fee with
      | false => simp [payoutReply_of_not_sendsPayout sends]
      | true =>
          simp only [payoutReply_of_sendsPayout sends, payoutDue_of_sendsPayout sends]
          cases send : outcomes.send with
          | ok signature => simp [Except.isOk, Except.toBool]
          | error thrown =>
              cases truthy : (loggedError thrown).truthy <;> simp [truthy, Except.isOk, Except.toBool]
    · have passes : outcomes.passesMint = !(loggedError thrown).truthy := by
        simp [ChainOutcomes.passesMint, failure]
      cases truthy : (loggedError thrown).truthy with
      | true => simp [passes, truthy]
      | false =>
          cases sends : outcomes.sendsPayout submission.fee with
          | true => simp [passes, truthy]
          | false => simp [passes, truthy, payoutReply_of_not_sendsPayout sends]
  · obtain ⟨result, final, ran, failed, isMinted, isSent, isTransferred⟩ :=
      run_submitProof_of_rejected outcomes state service submission verified
    rw [ran]
    simp [PaysForMint, ChainOutcomes.HiddenFailure, verified, failed, isSent]

end ComptoMiningPool
