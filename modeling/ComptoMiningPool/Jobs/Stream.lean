import ComptoMiningPool.Jobs.Service

/-
This file models the stream of job templates during one subscription lifetime. It proves when the
stream tells a new block from an interval tick.
-/

namespace ComptoMiningPool

open JavaScript

/-- A new block or an interval tick reaches the stream at some time of the clock. -/
inductive StreamEvent where
  | block (hash : Bytes) (milliseconds : ℕ)
  | tick (milliseconds : ℕ)

def StreamEvent.isBlock : StreamEvent → Bool
  | .block _ _ => true
  | .tick _ => false

def StreamEvent.milliseconds : StreamEvent → ℕ
  | .block _ milliseconds => milliseconds
  | .tick milliseconds => milliseconds

/-- The newest block hash and the newest interval count form one pair. -/
structure StreamPair where
  blockHash : Bytes
  interval : ℤ

def StreamPair.next (pair : StreamPair) : StreamEvent → StreamPair
  | .block hash _ => { pair with blockHash := hash }
  | .tick _ => { pair with interval := pair.interval + 1 }

/-- An interval count that equals the last one announces a new block. The pair after a new block is
dropped, and a dropped pair leaves the last count unchanged. -/
def JobsService.receive (service : JobsService) (blockTemplate : BlockTemplate) (interval : ℤ) :
    JobsService × Option JobTemplate :=
  let clearJobs := service.lastIntervalCount == some interval
  let service := if clearJobs then { service with skipNext := true } else service
  if service.skipNext && !clearJobs then
    ({ service with skipNext := false }, none)
  else
    let service := { service with lastIntervalCount := some interval }
    let (service, comptoJob) := service.emitTemplate blockTemplate clearJobs
    (service, some comptoJob)

/-- An emission keeps its cause and the service right after the template is stored. -/
structure Emission where
  event : StreamEvent
  template : JobTemplate
  service : JobsService

/-- The stream turns each event into a pair and drops the pairs without a template. -/
def emissions (publicKey : Bytes) : JobsService → StreamPair → List StreamEvent → List Emission
  | _, _, [] => []
  | service, pair, event :: events =>
      let pair := pair.next event
      let blockTemplate := getBlockTemplate publicKey pair.blockHash event.milliseconds
      match service.receive blockTemplate pair.interval with
      | (service, none) => emissions publicKey service pair events
      | (service, some template) =>
          ⟨event, template, service⟩ :: emissions publicKey service pair events

/-- A lifetime begins with the current block and the interval count `-1`. -/
def lifetime (publicKey : Bytes) (service : JobsService) (hash : Bytes) (milliseconds : ℕ)
    (events : List StreamEvent) : List Emission :=
  emissions publicKey service ⟨hash, -1⟩ (.block hash milliseconds :: events)

/-- A clearing emission leaves its own template as the only stored value. -/
def Emission.Clears (emission : Emission) : Prop :=
  emission.template.blockData.clearJobs = true ∧ emission.service.jobs = .empty ∧
    emission.service.blocks = Dictionary.empty.insert emission.template.blockData.id emission.template

/-- Each block after the first emission clears, and no tick clears. -/
def ClearsOnBlocks (emissions : List Emission) : Prop :=
  (∀ emission ∈ emissions.tail, emission.event.isBlock = true → emission.Clears) ∧
    ∀ emission ∈ emissions, emission.event.isBlock = false →
      emission.template.blockData.clearJobs = false

/-- A block hides when exactly one tick separates it from the block before it. -/
def hiddenBlock : List Bool := [true, false, true]

/-- The first pair of a restarted stream may count as a new block or may be dropped. -/
def NoHiddenBlock (service : JobsService) (events : List StreamEvent) : Prop :=
  let kinds := events.map StreamEvent.isBlock
  if service.lastIntervalCount = some (-1) then ¬ hiddenBlock <:+: true :: kinds
  else if service.skipNext then
    ¬ (service.lastIntervalCount = some 0 ∧ kinds.head? = some false) ∧ ¬ hiddenBlock <:+: kinds.tail
  else ¬ hiddenBlock <:+: kinds

section Service

variable (service : JobsService) (block : BlockTemplate) (clearJobs : Bool)

@[simp] theorem emitTemplate_lastIntervalCount :
    (service.emitTemplate block clearJobs).1.lastIntervalCount = service.lastIntervalCount := by
  cases clearJobs <;> rfl

@[simp] theorem emitTemplate_skipNext :
    (service.emitTemplate block clearJobs).1.skipNext = service.skipNext := by
  cases clearJobs <;> rfl

@[simp] theorem emitTemplate_clearJobs :
    (service.emitTemplate block clearJobs).2.blockData.clearJobs = clearJobs := rfl

variable {service}

/-- A repeated interval count clears and drops the next pair. -/
theorem receive_of_same {interval : ℤ} (same : service.lastIntervalCount = some interval) :
    service.receive block interval =
      (({ service with skipNext := true }.emitTemplate block true).1,
        some ({ service with skipNext := true }.emitTemplate block true).2) := by
  obtain ⟨last, skip, jobId, templateId, jobs, blocks⟩ := service
  obtain rfl : last = some interval := same
  simp [JobsService.receive]

/-- A pair that follows a new block is dropped. -/
theorem receive_of_skipped {interval : ℤ} (different : service.lastIntervalCount ≠ some interval)
    (skipped : service.skipNext = true) :
    service.receive block interval = ({ service with skipNext := false }, none) := by
  simp [JobsService.receive, different, skipped]

/-- Any other pair emits a template that clears nothing. -/
theorem receive_of_other {interval : ℤ} (different : service.lastIntervalCount ≠ some interval)
    (kept : service.skipNext = false) :
    service.receive block interval =
      (({ service with lastIntervalCount := some interval }.emitTemplate block false).1,
        some ({ service with lastIntervalCount := some interval }.emitTemplate block false).2) := by
  have differs : (service.lastIntervalCount == some interval) = false := by simpa using different
  simp [JobsService.receive, differs, kept]

end Service

/-- The two fields of the service recall the last events of a lawful lifetime. -/
inductive Recalls (service : JobsService) (pair : StreamPair) : List Bool → Prop where
  | steady (last : service.lastIntervalCount = some pair.interval) (skip : service.skipNext = false) :
      Recalls service pair []
  | armed (last : service.lastIntervalCount = some pair.interval) (skip : service.skipNext = true) :
      Recalls service pair [true]
  | stale (last : service.lastIntervalCount = some (pair.interval - 1))
      (skip : service.skipNext = false) : Recalls service pair [true, false]

theorem recalls_of_clear {service : JobsService} (block : BlockTemplate) (hash : Bytes) {interval : ℤ}
    (last : service.lastIntervalCount = some interval) :
    Recalls ({ service with skipNext := true }.emitTemplate block true).1 ⟨hash, interval⟩ [true] := by
  apply Recalls.armed
  · simpa using last
  · simp

theorem recalls_of_keep {service : JobsService} (block : BlockTemplate) (hash : Bytes) (interval : ℤ)
    (skip : service.skipNext = false) :
    Recalls ({ service with lastIntervalCount := some interval }.emitTemplate block false).1
      ⟨hash, interval⟩ [] := by
  apply Recalls.steady
  · simp
  · simpa using skip

theorem recalls_of_drop {service : JobsService} (hash : Bytes) {interval : ℤ}
    (last : service.lastIntervalCount = some interval) :
    Recalls { service with skipNext := false } ⟨hash, interval + 1⟩ [true, false] := by
  apply Recalls.stale
  · simpa using last
  · rfl

def Emission.Lawful (emission : Emission) : Prop :=
  if emission.event.isBlock then emission.Clears else emission.template.blockData.clearJobs = false

theorem lawful_of_clear (service : JobsService) (block : BlockTemplate) (hash : Bytes)
    (milliseconds : ℕ) : Emission.Lawful ⟨.block hash milliseconds,
      (service.emitTemplate block true).2, (service.emitTemplate block true).1⟩ :=
  ⟨rfl, rfl, rfl⟩

theorem lawful_of_tick (service : JobsService) (block : BlockTemplate) (milliseconds : ℕ) :
    Emission.Lawful ⟨.tick milliseconds, (service.emitTemplate block false).2,
      (service.emitTemplate block false).1⟩ :=
  rfl

theorem not_lawful_of_block (service : JobsService) (block : BlockTemplate) (hash : Bytes)
    (milliseconds : ℕ) : ¬ Emission.Lawful ⟨.block hash milliseconds,
      (service.emitTemplate block false).2, (service.emitTemplate block false).1⟩ := by
  rintro ⟨clears, _⟩
  cases clears

/-- The emissions are lawful exactly when no recalled or later block hides. -/
theorem lawful_iff (publicKey : Bytes) {service : JobsService} {pair : StreamPair} {recent : List Bool}
    (recalls : Recalls service pair recent) (events : List StreamEvent) :
    (∀ emission ∈ emissions publicKey service pair events, emission.Lawful) ↔
      ¬ hiddenBlock <:+: recent ++ events.map StreamEvent.isBlock := by
  induction events generalizing service pair recent with
  | nil =>
      cases recalls <;> simp [emissions, hiddenBlock, List.infix_cons_iff]
  | cons event events ih =>
      rw [List.map_cons]
      have stays : ∀ count next, service.lastIntervalCount = some count → count < next →
          service.lastIntervalCount ≠ some next := by
        intro count next last before equal
        have := Option.some.inj (last.symm.trans equal)
        omega
      cases event with
      | block hash milliseconds =>
          -- A block at the last count clears. The stale count is the case that hides the block.
          cases recalls with
          | steady last skip =>
              simp only [emissions, StreamPair.next, receive_of_same _ last, List.forall_mem_cons]
              rw [ih (recalls_of_clear _ hash last), and_iff_right (lawful_of_clear _ _ _ _)]
              rfl
          | armed last skip =>
              simp only [emissions, StreamPair.next, receive_of_same _ last, List.forall_mem_cons]
              rw [ih (recalls_of_clear _ hash last), and_iff_right (lawful_of_clear _ _ _ _)]
              simp [StreamEvent.isBlock, hiddenBlock, List.infix_cons_iff]
          | stale last skip =>
              have different := stays _ pair.interval last (by omega)
              simp only [emissions, StreamPair.next, receive_of_other _ different skip,
                List.forall_mem_cons, not_lawful_of_block, false_and, false_iff, not_not]
              show [true, false, true] <:+: [true, false, true] ++ events.map StreamEvent.isBlock
              exact (List.prefix_append _ _).isInfix
      | tick milliseconds =>
          cases recalls with
          | steady last skip =>
              have different := stays _ (pair.interval + 1) last (by omega)
              simp only [emissions, StreamPair.next, receive_of_other _ different skip,
                List.forall_mem_cons]
              rw [ih (recalls_of_keep _ _ _ skip), and_iff_right (lawful_of_tick _ _ _)]
              simp [StreamEvent.isBlock, hiddenBlock, List.infix_cons_iff]
          | armed last skip =>
              have different := stays _ (pair.interval + 1) last (by omega)
              simp only [emissions, StreamPair.next, receive_of_skipped _ different skip]
              rw [ih (recalls_of_drop _ last)]
              rfl
          | stale last skip =>
              have different := stays _ (pair.interval + 1) last (by omega)
              simp only [emissions, StreamPair.next, receive_of_other _ different skip,
                List.forall_mem_cons]
              rw [ih (recalls_of_keep _ _ _ skip), and_iff_right (lawful_of_tick _ _ _)]
              simp [StreamEvent.isBlock, hiddenBlock, List.infix_cons_iff]

/-- The first emission of a lifetime is exempt from the rule for blocks. -/
theorem clearsOnBlocks_cons_iff {first : Emission} {rest : List Emission} :
    ClearsOnBlocks (first :: rest) ↔
      (first.event.isBlock = false → first.template.blockData.clearJobs = false) ∧
        ∀ emission ∈ rest, emission.Lawful := by
  unfold ClearsOnBlocks
  rw [List.tail_cons, List.forall_mem_cons, and_left_comm]
  apply and_congr Iff.rfl
  rw [← forall₂_and]
  apply forall₂_congr
  intro emission member
  unfold Emission.Lawful
  cases emission.event.isBlock <;> simp

/-- After a dropped first pair the next event makes the first emission. -/
theorem clearsOnBlocks_of_drop (publicKey hash : Bytes) {service : JobsService}
    (different : service.lastIntervalCount ≠ some (-1)) (skip : service.skipNext = false)
    (events : List StreamEvent) :
    ClearsOnBlocks (emissions publicKey service ⟨hash, -1⟩ events) ↔
      ¬ (service.lastIntervalCount = some 0 ∧ (events.map StreamEvent.isBlock).head? = some false) ∧
        ¬ hiddenBlock <:+: (events.map StreamEvent.isBlock).tail := by
  cases events with
  | nil => simp [emissions, ClearsOnBlocks, hiddenBlock]
  | cons event events =>
      rw [List.map_cons, List.head?_cons, List.tail_cons]
      cases event with
      | block next milliseconds =>
          simp only [emissions, StreamPair.next, receive_of_other _ different skip]
          rw [clearsOnBlocks_cons_iff, lawful_iff publicKey (recalls_of_keep _ next _ skip)]
          simp [StreamEvent.isBlock]
      | tick milliseconds =>
          by_cases zero : service.lastIntervalCount = some (-1 + 1)
          · simp only [emissions, StreamPair.next, receive_of_same _ zero]
            rw [clearsOnBlocks_cons_iff]
            simp [StreamEvent.isBlock, zero]
          · simp only [emissions, StreamPair.next, receive_of_other _ zero skip]
            rw [clearsOnBlocks_cons_iff, lawful_iff publicKey (recalls_of_keep _ hash _ skip)]
            have nonzero : service.lastIntervalCount ≠ some 0 := zero
            simp [StreamEvent.isBlock, nonzero]

/-- A lifetime clears on exactly its blocks if and only if no block hides behind a dropped tick. -/
theorem lifetime_clearsOnBlocks_iff (publicKey : Bytes) (service : JobsService) (hash : Bytes)
    (milliseconds : ℕ) (events : List StreamEvent) :
    ClearsOnBlocks (lifetime publicKey service hash milliseconds events) ↔
      NoHiddenBlock service events := by
  unfold NoHiddenBlock lifetime
  by_cases same : service.lastIntervalCount = some (-1)
  · simp only [emissions, StreamPair.next, receive_of_same _ same, if_pos same]
    rw [clearsOnBlocks_cons_iff, lawful_iff publicKey (recalls_of_clear _ hash same)]
    exact and_iff_right (fun impossible => by cases impossible)
  · cases skip : service.skipNext with
    | false =>
        simp only [emissions, StreamPair.next, receive_of_other _ same skip, if_neg same]
        rw [clearsOnBlocks_cons_iff, lawful_iff publicKey (recalls_of_keep _ hash _ skip)]
        exact and_iff_right (fun impossible => by cases impossible)
    | true =>
        simp only [emissions, StreamPair.next, receive_of_skipped _ same skip, if_neg same, if_true]
        apply clearsOnBlocks_of_drop
        · exact same
        · rfl

/-- A block, one tick, and the next block leave the jobs of the older block in place. -/
theorem lifetime_hides_block :
    ¬ ClearsOnBlocks (lifetime (List.replicate 32 7) {} [] 0 [.block (List.replicate 32 1) 1,
      .tick 60000, .block (List.replicate 32 2) 60001]) := by
  intro clears
  have first : Recalls
      (({} : JobsService).receive (getBlockTemplate (List.replicate 32 7) [] 0) (-1)).1 ⟨[], -1⟩ [] :=
    .steady rfl rfl
  have lawful := (lawful_iff (List.replicate 32 7) first [.block (List.replicate 32 1) 1,
    .tick 60000, .block (List.replicate 32 2) 60001]).mp (clearsOnBlocks_cons_iff.mp clears).2
  apply lawful
  exact List.infix_refl _

end ComptoMiningPool
