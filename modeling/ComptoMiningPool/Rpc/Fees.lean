import ComptoMiningPool.Rpc.Payout

/-
This file proves which fees leave a payout that the chain service can send after its mint.
-/

namespace ComptoMiningPool

open JavaScript Async

def RpcEvent.sentAmount? : RpcEvent → Option ℤ
  | .issued (.sendAndConfirmTransaction _ amount) => some amount
  | _ => none

/-- The amounts of the transfers that were sent. -/
def sentAmounts (history : RpcHistory) : List ℤ := history.filterMap RpcEvent.sentAmount?

theorem sentAmounts_of_not_transferSent {history : RpcHistory} (unsent : transferSent history = false) :
    sentAmounts history = [] := by
  apply List.filterMap_eq_nil_iff.mpr
  intro event member
  have quiet := List.any_eq_false.mp unsent event member
  cases event with
  | issued request =>
      cases request with
      | sendAndConfirmTransaction recipient amount => exact absurd rfl quiet
      | _ => rfl
  | _ => rfl

@[simp] theorem sentAmounts_afterTurn (history : RpcHistory) :
    sentAmounts (afterTurn history) = sentAmounts history := rfl

/-- Every chain call of a submission succeeds, the retry of a mint on a full account included. -/
structure ChainOutcomes.Succeeds (outcomes : ChainOutcomes) (state : RpcState) : Prop where
  verified : outcomes.Verified state
  minted : outcomes.mintFailure = none
  built : outcomes.build = .ok ()
  sent : ∃ signature, outcomes.send = .ok signature

/-- A run hands on what the fee leaves of the mined amount: one transfer of a positive amount, no transfer
of nothing, and a success. -/
def PaysRemainder (fee : Number) (run : Program.Run RpcState RpcAnswer RpcTask Thrown (Reply Bool)) : Prop :=
  ∃ amount : ℤ, 0 ≤ amount ∧ fee = .finite (10000 - amount) ∧
    sentAmounts run.history = (if 0 < amount then [amount] else []) ∧ run.result = .ok (.result true)

section Runs

variable {outcomes : ChainOutcomes} {state : RpcState}

/-- A payout whose calls succeed sends the amount that it computes. -/
theorem sentAmounts_processFees (built : outcomes.build = .ok ()) (recipient : String) (fee : Number)
    (history : RpcHistory) :
    sentAmounts ((processFees recipient fee).run outcomes.environment state history).history =
      (if outcomes.sendsPayout fee then (userPayoutAmount fee).toBigInt.toList else []) ++
        sentAmounts history := by
  unfold processFees ChainOutcomes.sendsPayout
  cases validFee fee with
  | false => rfl
  | true =>
      cases Number.le (userPayoutAmount fee) 0 with
      | true => rfl
      | false =>
          cases (userPayoutAmount fee).toBigInt with
          | none => rfl
          | some amount =>
              have ran : (createTransferInstruction recipient amount).run outcomes.environment state
                  history = ⟨.ok (), state, .answered (.createTransferInstruction recipient amount) (.ok ()) ::
                    .issued (.createTransferInstruction recipient amount) :: history⟩ := by
                rw [run_createTransferInstruction, built]
              simp only [Bool.not_true, Bool.false_eq_true, if_false, Program.bind_eq, Program.run_bind, ran,
                run_joined_turn, run_tryWithLog, run_sendAndConfirmTransaction, built]
              rfl

/-- A minted submission sends the amount of its payout only. -/
theorem sentAmounts_mineAndPay (minted : outcomes.mintFailure = none) (built : outcomes.build = .ok ())
    (proof : ComptokenProof) (recipient : String) (fee : Number) {history : RpcHistory}
    (fresh : history.countP RpcEvent.asksMint = 0) (unsent : transferSent history = false) :
    sentAmounts ((mineAndPay proof recipient fee).run outcomes.environment state history).history =
      if outcomes.sendsPayout fee then (userPayoutAmount fee).toBigInt.toList else [] := by
  obtain ⟨reply, middle, mined, replied, _, isSent, _⟩ := run_mineComptokens outcomes state proof fresh
  have passes : reply.error?.truthy = false := by
    rw [replied, minted]
    rfl
  have quiet : sentAmounts (afterTurn middle) = [] := by
    rw [sentAmounts_afterTurn, sentAmounts_of_not_transferSent (isSent.trans unsent)]
  have paid := @sentAmounts_processFees outcomes state built recipient fee (afterTurn middle)
  rw [quiet, List.append_nil] at paid
  simp only [mineAndPay, Program.bind_eq, Program.run_bind, run_joined_turn, mined, passes,
    Bool.false_eq_true, if_false]
  cases ended : ((processFees recipient fee).run outcomes.environment state (afterTurn middle)).result with
  | error thrown => exact paid
  | ok fees =>
      refine Eq.trans ?_ paid
      dsimp only
      cases fees.error?.truthy <;> rfl

/-- A submission whose calls succeed sends the amount of its payout only. -/
theorem sentAmounts_submitProof (service : RpcService) (submission : Submission)
    (succeeds : outcomes.Succeeds state) :
    sentAmounts ((service.submitProof submission).run outcomes.environment state []).history =
      if outcomes.sendsPayout submission.fee then (userPayoutAmount submission.fee).toBigInt.toList
      else [] := by
  obtain ⟨current, constructed, lower⟩ := succeeds.verified
  obtain ⟨hash, found⟩ := Option.ne_none_iff_exists'.mp current
  rw [submitProof_eq, Program.run_bind, run_verifyProof]
  simp only [found, constructed, lower]
  exact sentAmounts_mineAndPay succeeds.minted succeeds.built _ _ _ rfl rfl

/-- A submission whose calls succeed replies what its payout replies. -/
theorem run_submitProof_of_succeeds (service : RpcService) (submission : Submission)
    (succeeds : outcomes.Succeeds state) :
    ((service.submitProof submission).run outcomes.environment state []).result =
      outcomes.payoutReply submission.fee := by
  obtain ⟨final, ran, _⟩ := run_submitProof_of_verified outcomes state service submission succeeds.verified
  have passes : outcomes.passesMint = true := by
    rw [ChainOutcomes.passesMint, succeeds.minted]
  rw [ran, passes]
  rfl

end Runs

theorem validFee_finite_iff (fee : ℚ) : validFee (.finite fee) = true ↔ 0 ≤ fee ∧ fee ≤ 10000 := by
  change (decide (((0 : ℕ) : ℚ) ≤ fee) && decide (fee ≤ ((10000 : ℕ) : ℚ))) = true ↔ _
  rw [Bool.and_eq_true, decide_eq_true_iff, decide_eq_true_iff]
  norm_num

/-- A whole fee is subtracted exactly. -/
theorem userPayoutAmount_whole {amount : ℕ} (small : amount ≤ 10000) :
    userPayoutAmount (.finite (10000 - amount)) = .ofNat amount := by
  calc userPayoutAmount (.finite (10000 - amount)) =
        Number.ofRat (((10000 : ℕ) : ℚ) - (10000 - amount)) := rfl
    _ = Number.ofRat (amount : ℚ) := by congr 1; push_cast; ring
    _ = .ofNat amount := Number.ofRat_natCast (by omega)

/-- A valid whole fee leaves a natural amount. -/
theorem exists_amount {fee : ℤ} (valid : validFee (.finite fee) = true) :
    ∃ amount : ℕ, amount ≤ 10000 ∧ (.finite fee : Number) = .finite (10000 - amount) := by
  obtain ⟨least, most⟩ := (validFee_finite_iff fee).mp valid
  replace least : 0 ≤ fee := by exact_mod_cast least
  replace most : fee ≤ 10000 := by exact_mod_cast most
  refine ⟨(10000 - fee).toNat, by omega, ?_⟩
  have back : (((10000 - fee).toNat : ℤ) : ℚ) = ((10000 - fee : ℤ) : ℚ) := by
    rw [Int.toNat_of_nonneg (by omega)]
  congr 1
  rw [show (((10000 - fee).toNat : ℕ) : ℚ) = (((10000 - fee).toNat : ℤ) : ℚ) from (Int.cast_natCast _).symm,
    back]
  push_cast
  ring

theorem toBigInt_ofNat (amount : ℕ) : (Number.ofNat amount).toBigInt = some (amount : ℤ) := by
  simp [Number.ofNat, Number.toBigInt]

theorem le_zero_ofNat (amount : ℕ) : Number.le (.ofNat amount) 0 = decide (amount = 0) := by
  change decide ((amount : ℚ) ≤ ((0 : ℕ) : ℚ)) = _
  simp

/-- When every chain call succeeds, a submission hands on what a valid fee leaves exactly when the fee is
a whole number. -/
theorem submitProof_paysRemainder_iff (service : RpcService) (submission : Submission)
    (outcomes : ChainOutcomes) (state : RpcState) (valid : validFee submission.fee = true)
    (succeeds : outcomes.Succeeds state) :
    PaysRemainder submission.fee ((service.submitProof submission).run outcomes.environment state []) ↔
      ∃ fee : ℤ, submission.fee = .finite fee := by
  constructor
  · rintro ⟨amount, _, whole, _⟩
    exact ⟨10000 - amount, by rw [whole]; push_cast; rfl⟩
  · rintro ⟨fee, whole⟩
    obtain ⟨amount, small, same⟩ := exists_amount (by rw [← whole]; exact valid)
    rw [same] at whole
    have payout := userPayoutAmount_whole small
    have due : Number.le (userPayoutAmount submission.fee) 0 = decide (amount = 0) := by
      rw [whole, payout, le_zero_ofNat]
    have converts : (userPayoutAmount submission.fee).toBigInt = some (amount : ℤ) := by
      rw [whole, payout, toBigInt_ofNat]
    obtain ⟨signature, sent⟩ := succeeds.sent
    refine ⟨amount, Int.natCast_nonneg amount, by rw [whole]; push_cast; rfl, ?_, ?_⟩
    · rw [sentAmounts_submitProof service submission succeeds, ChainOutcomes.sendsPayout, valid, due, converts,
        succeeds.built]
      rcases Nat.eq_zero_or_pos amount with rfl | positive
      · rfl
      · simp [positive.ne', positive, Except.isOk, Except.toBool]
    · rw [run_submitProof_of_succeeds service submission succeeds, ChainOutcomes.payoutReply, valid, due, converts,
        succeeds.built, sent]
      rcases Nat.eq_zero_or_pos amount with rfl | positive
      · rfl
      · simp [positive.ne']

def succeedingOutcomes : ChainOutcomes :=
  ⟨.ok (), .ok true, .ok "mint", .ok 0, .ok "resize", .ok "remint", .ok (), .ok "transfer"⟩

def feeSubmission (fee : Number) : Submission := ⟨List.replicate 32 3, 0, 0x20000000, 0, "miner", fee⟩

/-- The default fee hands on the rest. -/
theorem submitProof_paysRemainder_default :
    PaysRemainder 100 ((RpcService.submitProof ⟨List.replicate 32 7, "devnet"⟩ (feeSubmission 100)).run
      succeedingOutcomes.environment { blockHash := some (List.replicate 32 1) } []) :=
  (submitProof_paysRemainder_iff ⟨List.replicate 32 7, "devnet"⟩ (feeSubmission 100) succeedingOutcomes
    { blockHash := some (List.replicate 32 1) } (by decide +kernel)
    ⟨⟨by simp, rfl, rfl⟩, rfl, rfl, "transfer", rfl⟩).mpr ⟨100, by decide +kernel⟩

/-- A fee of half a unit passes both range checks, and its payout throws after the mint. -/
theorem submitProof_throws_after_mint :
    let run := (RpcService.submitProof ⟨List.replicate 32 7, "devnet"⟩ (feeSubmission (.finite (1 / 2)))).run
      succeedingOutcomes.environment { blockHash := some (List.replicate 32 1) } []
    validFee (.finite (1 / 2)) = true ∧ minted run.history = true ∧
      run.result = .error (.error "The number cannot be converted to a BigInt") ∧
      ¬ PaysRemainder (.finite (1 / 2)) run := by
  intro run
  have valid : validFee (.finite (1 / 2)) = true := by decide +kernel
  have due : Number.le (userPayoutAmount (.finite (1 / 2))) 0 = false := by decide +kernel
  have fractional : (userPayoutAmount (.finite (1 / 2))).toBigInt = none := by decide +kernel
  have failed : run.result = .error (.error "The number cannot be converted to a BigInt") := by
    refine (run_submitProof_of_succeeds _ (feeSubmission (.finite (1 / 2)))
      ⟨⟨by simp, rfl, rfl⟩, rfl, rfl, "transfer", rfl⟩).trans ?_
    change succeedingOutcomes.payoutReply (.finite (1 / 2)) = _
    rw [ChainOutcomes.payoutReply, valid, due, fractional]
    rfl
  refine ⟨valid, by decide +kernel, failed, ?_⟩
  rintro ⟨amount, _, _, _, succeeded⟩
  rw [failed] at succeeded
  cases succeeded

end ComptoMiningPool
