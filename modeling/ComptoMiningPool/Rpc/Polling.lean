import ComptoMiningPool.Rpc.Service

/-
This file proves which block hashes the polls adopt when their answers arrive in any order.
-/

namespace ComptoMiningPool

open JavaScript Async

/-- The answered requests with their hashes, newest first. -/
def arrivals (trace : Trace RpcAnswer RpcTask) : List (ℕ × Bytes) :=
  trace.filterMap fun
    | (me, .answered .syncValidBlockhashes (.ok hash)) => some (me, hash)
    | _ => none

/-- The hashes that polls emit on the block stream, newest first. -/
def adoptions (trace : Trace RpcAnswer RpcTask) : List (ℕ × Bytes) :=
  trace.filterMap fun
    | (me, .called (.nextBlock hash) _) => some (me, hash)
    | _ => none

/-- The arrivals whose hash differs from the arrival before them. -/
def changes : List (ℕ × Bytes) → List (ℕ × Bytes)
  | [] => []
  | arrival :: earlier =>
      if earlier.head?.map Prod.snd = some arrival.2 then changes earlier
      else arrival :: changes earlier

/-- The first request left before the second one. -/
def SentBefore (trace : Trace RpcAnswer RpcTask) (first second : ℕ) : Prop :=
  ∃ earlier, (second, .issued .syncValidBlockhashes) :: earlier <:+ trace ∧
    (first, .issued .syncValidBlockhashes) ∈ earlier

/-- The block hash is the newest emission, no emission repeats the one before it, and no adopted
answer gives way to the answer of a request that was sent before its own. -/
structure FollowsChain (state : RpcState) (trace : Trace RpcAnswer RpcTask) : Prop where
  current : state.blockHash = (adoptions trace).head?.map Prod.snd
  changing : ((adoptions trace).map Prod.snd).IsChain (· ≠ ·)
  advancing : (adoptions trace).Pairwise fun later earlier => ¬ SentBefore trace later.1 earlier.1

/-- The answers with a new hash arrive in the order of their requests. -/
def ChangesInOrder (trace : Trace RpcAnswer RpcTask) : Prop :=
  (changes (arrivals trace)).Pairwise fun later earlier => ¬ SentBefore trace later.1 earlier.1

/-- The newest change carries the newest hash. -/
theorem head_changes (arrived : List (ℕ × Bytes)) :
    (changes arrived).head?.map Prod.snd = arrived.head?.map Prod.snd := by
  induction arrived with
  | nil => rfl
  | cons arrival earlier ih =>
      unfold changes
      split
      · rename_i repeated
        rw [ih, repeated]
        rfl
      · rfl

/-- Two successive changes carry different hashes. -/
theorem isChain_changes (arrived : List (ℕ × Bytes)) :
    ((changes arrived).map Prod.snd).IsChain (· ≠ ·) := by
  induction arrived with
  | nil => exact List.isChain_nil
  | cons arrival earlier ih =>
      unfold changes
      split
      · exact ih
      · rename_i fresh
        rw [List.map_cons, List.isChain_cons]
        refine ⟨?_, ih⟩
        intro previous found equal
        apply fresh
        rw [← head_changes, equal, ← List.head?_map]
        exact found

/-- The polls adopt exactly the changes of the arrivals. -/
structure PollInvariant (state : RpcState) (trace : Trace RpcAnswer RpcTask) : Prop where
  current : state.blockHash = (arrivals trace).head?.map Prod.snd
  adopted : adoptions trace = changes (arrivals trace)

/-- The chain may give any answer, in any order and after any time. -/
def anyAnswer (_ : Nat) (_ : RpcState) (_ : Trace RpcAnswer RpcTask) (call : RpcCall)
    (_ : RpcAnswer call) : Prop := True

def pollContract : Contract RpcState RpcAnswer RpcTask where
  admits := anyAnswer
  monitor _ _ _ := True
  rely _ _ := True
  invariant := PollInvariant

/-- These calls neither bring a hash nor emit one. -/
def RpcCall.Hashless : RpcCall → Prop
  | .syncValidBlockhashes => False
  | .nextBlock _ => False
  | _ => True

section Steps

variable {V : Type} {me : Nat} {state : RpcState} {trace : Trace RpcAnswer RpcTask}

theorem PollInvariant.hashless {event : Event RpcAnswer RpcTask} (kept : PollInvariant state trace)
    (quiet : match event with
      | .started _ => True
      | .called request _ => request.Hashless
      | .issued _ => True
      | .answered request _ => request.Hashless) : PollInvariant state ((me, event) :: trace) := by
  have sameArrivals : arrivals ((me, event) :: trace) = arrivals trace := by
    unfold arrivals
    rw [List.filterMap_cons]
    cases event with
    | started label => rfl
    | called call answer => rfl
    | issued call => rfl
    | answered call answer => cases call <;> first | exact quiet.elim | rfl
  have sameAdoptions : adoptions ((me, event) :: trace) = adoptions trace := by
    unfold adoptions
    rw [List.filterMap_cons]
    cases event with
    | started label => rfl
    | called call answer => cases call <;> first | exact quiet.elim | rfl
    | issued call => rfl
    | answered call answer => rfl
  constructor
  · rw [sameArrivals, kept.current]
  · rw [sameArrivals, sameAdoptions, kept.adopted]

/-- A program that makes such calls only keeps the invariant. -/
theorem wp_of_hashless {program : RpcProgram V} (confined : Confined RpcCall.Hashless program)
    (kept : PollInvariant state trace) :
    wp pollContract me program (fun _ => PollInvariant) state trace := by
  apply wp_of_confined confined _ kept
  intro state trace event kept quiet
  refine ⟨trivial, kept.hashless ?_⟩
  cases event with
  | started task => trivial
  | called request answer => exact quiet
  | issued request => trivial
  | answered request answer => exact quiet

end Steps

section Confined

variable {V : Type}

theorem confined_turn {program : RpcProgram V} (confined : Confined RpcCall.Hashless program) :
    Confined RpcCall.Hashless (program.joined .turn) :=
  confined.joined trivial

theorem confined_tryWithLog {fn : RpcProgram V} (confined : Confined RpcCall.Hashless fn) :
    Confined RpcCall.Hashless (tryWithLog fn) := by
  apply Confined.attempt
  · apply Confined.bind
    · exact confined_turn confined
    · exact fun _ => trivial
  · exact fun _ => trivial

theorem confined_updateUserData : Confined RpcCall.Hashless updateUserData :=
  confined_tryWithLog ⟨trivial, confined_ofExcept⟩

theorem confined_increaseUserDataCapacity (additionalCapacity : ℕ) :
    Confined RpcCall.Hashless (increaseUserDataCapacity additionalCapacity) := by
  apply Confined.bind
  · exact confined_turn (confined_tryWithLog ⟨trivial, confined_ofExcept⟩)
  · intro userDataAccountInfoResult
    cases userDataAccountInfoResult with
    | error message rawError => trivial
    | result capacity =>
        apply Confined.bind
        · exact confined_turn (confined_tryWithLog ⟨trivial, confined_ofExcept⟩)
        · exact fun _ => trivial

theorem confined_mineComptokens (proof : ComptokenProof) :
    Confined RpcCall.Hashless (mineComptokens proof) := by
  have submit : Confined RpcCall.Hashless ((tryWithLog (submitMiningProof proof)).joined .turn) :=
    confined_turn (confined_tryWithLog ⟨trivial, confined_ofExcept⟩)
  apply submit.bind
  intro mintComptokensResult
  cases mintComptokensResult with
  | result signature => trivial
  | error message rawError =>
      dsimp only
      split
      · apply (confined_turn (confined_increaseUserDataCapacity 100)).bind
        intro increased
        cases increased with
        | error message => trivial
        | result signature => exact submit.bind fun _ => trivial
      · trivial

theorem confined_processFees (recipient : String) (fee : Number) :
    Confined RpcCall.Hashless (processFees recipient fee) := by
  unfold processFees
  split
  · trivial
  · split
    · trivial
    · split
      · trivial
      · apply Confined.bind
        · exact ⟨trivial, confined_ofExcept⟩
        · intro _
          apply Confined.bind
          · exact confined_turn (confined_tryWithLog ⟨trivial, confined_ofExcept⟩)
          · exact fun _ => trivial

theorem confined_verifyProof (service : RpcService) (extraData : Bytes)
    (nonce version timestamp : Number) (pubkey : Bytes) :
    Confined RpcCall.Hashless (service.verifyProof extraData nonce version timestamp pubkey) := by
  intro state
  simp only [Program.bind_eq, Program.bind]
  cases state.blockHash with
  | none => trivial
  | some recentBlockHash =>
      refine ⟨trivial, fun constructed => ?_⟩
      apply (confined_ofExcept constructed).bind
      intro _
      refine ⟨trivial, fun compared => ?_⟩
      apply (confined_ofExcept compared).bind
      intro lower
      cases lower <;> trivial

/-- A submission reads the block hash and never changes it. -/
theorem confined_submitProof (service : RpcService) (submission : Submission) :
    Confined RpcCall.Hashless (service.submitProof submission) := by
  apply (confined_verifyProof service _ _ _ _ _).bind
  intro proofResult
  cases proofResult with
  | error message => trivial
  | result proof =>
      apply (confined_turn (confined_mineComptokens proof)).bind
      intro mineResult
      split
      · trivial
      · apply (confined_turn (confined_processFees _ _)).bind
        intro processFeesResult
        split <;> trivial

end Confined

section Polls

variable {me : Nat} {state : RpcState} {trace : Trace RpcAnswer RpcTask}

/-- An answer with the current hash changes nothing. An answer with another hash is adopted at once. -/
theorem wp_pollMiningInfoOnce_of_kept (kept : PollInvariant state trace) :
    wp pollContract me pollMiningInfoOnce (fun _ => PollInvariant) state trace := by
  unfold pollMiningInfoOnce getMiningInfo
  refine ⟨trivial, kept.hashless trivial, ?_⟩
  intro state₁ trace₁ _ _ kept₁ answer _
  refine ⟨trivial, ?_⟩
  cases answer with
  | error thrown => exact ⟨kept₁.current, kept₁.adopted⟩
  | ok miningInfo =>
      show wp pollContract me (if state₁.blockHash ≠ some miningInfo then _ else _) _ _ _
      have arrived : arrivals ((me, .answered .syncValidBlockhashes (.ok miningInfo)) :: trace₁) =
          (me, miningInfo) :: arrivals trace₁ := rfl
      by_cases known : state₁.blockHash = some miningInfo
      · have repeated : (arrivals trace₁).head?.map Prod.snd = some miningInfo := by
          rw [← kept₁.current, known]
        rw [if_neg (not_not.mpr known)]
        constructor
        · rw [arrived, known]
          rfl
        · rw [arrived, changes, if_pos repeated]
          exact kept₁.adopted
      · have fresh : (arrivals trace₁).head?.map Prod.snd ≠ some miningInfo := by
          rw [← kept₁.current]
          exact known
        rw [if_pos known]
        intro _ _
        refine ⟨trivial, trivial, ?_⟩
        show wp pollContract me ((updateUserData.joined .turn).bind fun _ => .done true) _ _ _
        apply wp_of_hashless
        · exact (confined_turn confined_updateUserData).bind fun _ => trivial
        · constructor
          · rfl
          · show (me, miningInfo) :: adoptions trace₁ = changes ((me, miningInfo) :: arrivals trace₁)
            rw [changes, if_neg fresh, kept₁.adopted]

theorem wp_pollTick_of_kept (interval : ℕ) (kept : PollInvariant state trace) :
    wp pollContract me (pollTick interval) (fun _ => PollInvariant) state trace := by
  unfold pollTick
  simp only [Program.bind_eq]
  rw [wp_bind, wp_joined]
  apply wp_mono _ (wp_pollMiningInfoOnce_of_kept kept)
  intro result state₁ trace₁ kept₁
  refine ⟨trivial, kept₁.hashless trivial, ?_⟩
  intro state₂ trace₂ _ _ kept₂ _ _
  refine ⟨trivial, ?_⟩
  rw [wp_ofExcept]
  have kept₃ : PollInvariant state₂ ((me, .answered .turn ()) :: trace₂) := kept₂.hashless trivial
  match result with
  | .error thrown => exact kept₃
  | .ok false => exact kept₃
  | .ok true => exact ⟨trivial, kept₃.current, kept₃.adopted⟩

end Polls

/-- The polls keep their invariant beside any number of submissions. -/
theorem pollContract_proved (service : RpcService) :
    pollContract.Proved (service.semantics anyAnswer) {} where
  sameAnswers := rfl
  relyRefl _ := trivial
  relyTrans _ _ _ _ _ := trivial
  initially := ⟨rfl, rfl⟩
  starts := by
    intro state trace me task kept _ _
    refine ⟨trivial, ?_⟩
    have started : PollInvariant state ((me, .started task) :: trace) := kept.hashless trivial
    cases task with
    | pollMiningInfo => exact ⟨trivial, started.current, started.adopted⟩
    | tick interval => exact wp_pollTick_of_kept interval started
    | submitProof submission =>
        apply wp_of_hashless _ started
        exact (confined_submitProof service submission).bind fun _ => trivial
  disturbed _ _ _ _ impossible := impossible.elim

/-- Every interleaving follows the chain exactly when its new hashes arrive in request order. -/
theorem followsChain_iff_changesInOrder (service : RpcService)
    {system : System RpcState RpcAnswer Thrown Unit RpcTask}
    (reached : Reachable (service.semantics anyAnswer) {} system) :
    FollowsChain system.state system.trace ↔ ChangesInOrder system.trace := by
  obtain ⟨kept, _⟩ := (pollContract_proved service).reachable reached
  unfold ChangesInOrder
  rw [← kept.adopted]
  constructor
  · exact FollowsChain.advancing
  · intro advancing
    refine ⟨?_, ?_, advancing⟩
    · rw [kept.adopted, head_changes, kept.current]
    · rw [kept.adopted]
      exact isChain_changes _

/-- Two polls overlap, and the older request answers last with the older hash. -/
theorem followsChain_fails_for_late_answer :
    ∃ system : System RpcState RpcAnswer Thrown Unit RpcTask,
      Reachable (RpcService.semantics ⟨List.replicate 32 7, "devnet"⟩ anyAnswer) {} system ∧
        ¬ FollowsChain system.state system.trace := by
  let service : RpcService := ⟨List.replicate 32 7, "devnet"⟩
  let old : Bytes := List.replicate 32 1
  let new : Bytes := List.replicate 32 2
  have polling : Step (service.semantics anyAnswer) ⟨{}, [], []⟩
      ⟨{ intervals := 1, running := [0] }, [(0, .started .pollMiningInfo)], [.ended (.ok ())]⟩ :=
    .start .pollMiningInfo trivial (.read (.store .done))
  have running : (0 : ℕ) ∈ ([0] : List ℕ) := List.mem_singleton.mpr rfl
  refine ⟨_, ((((Relation.ReflTransGen.single polling).tail (.start (.tick 0) running .await)).tail
    (.start (.tick 0) running .await)).tail
      (.resume 2 rfl (.ok new) trivial (.read (.call () trivial (.read (.store .await)))))).tail
        (.resume 1 rfl (.ok old) trivial (.read (.call () trivial (.read (.store .await))))), ?_⟩
  intro follows
  have advancing := List.pairwise_cons.mp follows.advancing
  apply advancing.1 (2, new) (List.mem_singleton.mpr rfl)
  refine ⟨[(2, .started (.tick 0)), (1, .issued .syncValidBlockhashes), (1, .started (.tick 0)),
    (0, .started .pollMiningInfo)], ⟨[(1, .issued .collect), (1, .called (.nextBlock old) ()),
      (1, .answered .syncValidBlockhashes (.ok old)), (2, .issued .collect),
      (2, .called (.nextBlock new) ()), (2, .answered .syncValidBlockhashes (.ok new))], rfl⟩, ?_⟩
  exact List.mem_cons_of_mem _ List.mem_cons_self

/-- A first poll with one answer follows the chain. -/
theorem followsChain_after_answer :
    FollowsChain
      { blockHash := some (List.replicate 32 2), newBlock := List.replicate 32 2, intervals := 1,
        running := [0] }
      [(1, .issued .collect), (1, .called (.nextBlock (List.replicate 32 2)) ()),
        (1, .answered .syncValidBlockhashes (.ok (List.replicate 32 2))),
        (1, .issued .syncValidBlockhashes), (1, .started (.tick 0)), (0, .started .pollMiningInfo)] := by
  have polling : Step (RpcService.semantics ⟨List.replicate 32 7, "devnet"⟩ anyAnswer) ⟨{}, [], []⟩
      ⟨{ intervals := 1, running := [0] }, [(0, .started .pollMiningInfo)], [.ended (.ok ())]⟩ :=
    .start .pollMiningInfo trivial (.read (.store .done))
  have running : (0 : ℕ) ∈ ([0] : List ℕ) := List.mem_singleton.mpr rfl
  have reached := ((Relation.ReflTransGen.single polling).tail (.start (.tick 0) running .await)).tail
    (.resume 1 rfl (.ok (List.replicate 32 2)) trivial (.read (.call () trivial (.read (.store .await)))))
  apply (followsChain_iff_changesInOrder _ reached).mpr
  exact List.pairwise_singleton _ _

end ComptoMiningPool
