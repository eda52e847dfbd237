import ComptoMiningPool.Client.StratumV1Client
import ComptoMiningPool.Jobs.Stream
import ComptoMiningPool.Rpc.Polling

/-
This file joins the chain service, the job stream, and the job store into one pool. It proves when
every stored job belongs to the block that the chain service verifies against.
-/

namespace ComptoMiningPool

open JavaScript Async

/-- The chain has block hashes of 32 bytes. -/
abbrev BlockHash := { hash : Bytes // hash.length = 32 }

/-- The job stream runs while it has subscribers. It keeps its newest template for the next one. -/
structure JobStream where
  interval : ℤ
  subscribers : ℕ
  subscribed : 0 < subscribers
  replay : Option JobTemplate

/-- The pool joins the chain service, the jobs service, and the stream between them. -/
structure PoolState where
  rpc : RpcState := {}
  service : JobsService := {}
  stream : Option JobStream := none

/-- A poll answers, an interval ticks, a client subscribes or leaves, or a share arrives. -/
inductive PoolEvent where
  | poll (hash : BlockHash) (milliseconds : ℕ)
  | tick (milliseconds : ℕ)
  | subscribe (milliseconds : ℕ)
  | unsubscribe
  | submit (jobId : String)

/-- Every subscriber adds its own job for an emitted template. -/
def JobsService.addJobs (service : JobsService) (template : JobTemplate) : ℕ → JobsService
  | 0 => service
  | subscribers + 1 => JobsService.addJobs (service.addJob template).1 template subscribers

/-- The template that a submission with this job id is checked against. -/
def JobsService.lookupTemplate (service : JobsService) (jobId : String) : Option JobTemplate :=
  match service.getJobById jobId with
  | none => none
  | some job =>
      match service.getJobTemplateById (jobTemplateIdOf job) with
      | some (.own jobTemplate) => some jobTemplate
      | _ => none

namespace PoolState

/-- The stream receives the newest block with an interval count and hands on what it emits. -/
def receivePair (publicKey : Bytes) (milliseconds : ℕ) (state : PoolState) (stream : JobStream) :
    PoolState :=
  let blockTemplate := getBlockTemplate publicKey state.rpc.newBlock milliseconds
  match state.service.receive blockTemplate stream.interval with
  | (service, none) => { state with service := service, stream := some stream }
  | (service, some template) => { state with
      service := service.addJobs template stream.subscribers
      stream := some { stream with replay := some template } }

/-- A poll announces a new hash on the stream before it stores the hash. -/
def poll (publicKey : Bytes) (state : PoolState) (hash : Bytes) (milliseconds : ℕ) : PoolState :=
  if state.rpc.blockHash = some hash then state
  else
    let state := { state with rpc := { state.rpc with newBlock := hash } }
    let state := match state.stream with
      | none => state
      | some stream => state.receivePair publicKey milliseconds stream
    { state with rpc := { state.rpc with blockHash := some hash } }

/-- A late subscriber receives the newest template. The first subscriber restarts the stream. -/
def subscribe (publicKey : Bytes) (state : PoolState) (milliseconds : ℕ) : PoolState :=
  match state.stream with
  | none => state.receivePair publicKey milliseconds ⟨-1, 1, Nat.one_pos, none⟩
  | some stream =>
      let joined := { stream with
        subscribers := stream.subscribers + 1
        subscribed := Nat.succ_pos stream.subscribers }
      match stream.replay with
      | none => { state with stream := some joined }
      | some template => { state with
          service := (state.service.addJob template).1
          stream := some joined }

/-- The last subscriber stops the stream, and the stream forgets its newest template. -/
def unsubscribe (state : PoolState) : PoolState :=
  match state.stream with
  | none => state
  | some stream =>
      if others : 0 < stream.subscribers - 1 then
        { state with stream := some { stream with
            subscribers := stream.subscribers - 1
            subscribed := others } }
      else { state with stream := none }

/-- A stopped stream has no interval, and a submission only reads the store. -/
def step (publicKey : Bytes) (state : PoolState) : PoolEvent → PoolState
  | .poll hash milliseconds => state.poll publicKey hash.1 milliseconds
  | .tick milliseconds =>
      match state.stream with
      | none => state
      | some stream =>
          state.receivePair publicKey milliseconds { stream with interval := stream.interval + 1 }
  | .subscribe milliseconds => state.subscribe publicKey milliseconds
  | .unsubscribe => state.unsubscribe
  | .submit _ => state

def run (publicKey : Bytes) (state : PoolState) (events : List PoolEvent) : PoolState :=
  events.foldl (step publicKey) state

/-- Every job that a submission can find was mined on the block that the proof is verified with. -/
def Fresh (state : PoolState) : Prop :=
  ∀ hash, state.rpc.blockHash = some hash → ∀ jobId template,
    state.service.lookupTemplate jobId = some template → template.block.currentblockhash = hash.toHex

/-- A poll with a new hash reaches a running stream whose last emission carried the current interval
count, or it finds no stored job. -/
def Announces (state : PoolState) : PoolEvent → Prop
  | .poll hash _ => state.rpc.blockHash = some hash.1 ∨
      (∃ stream, state.stream = some stream ∧
        state.service.lastIntervalCount = some stream.interval) ∨
      ∀ jobId, state.service.jobs jobId = none
  | _ => True

end PoolState

section Pairs

variable {publicKey : Bytes} {milliseconds : ℕ} {state : PoolState} {stream : JobStream}
  {service : JobsService}

theorem receivePair_of_drop (dropped : state.service.receive
      (getBlockTemplate publicKey state.rpc.newBlock milliseconds) stream.interval = (service, none)) :
    state.receivePair publicKey milliseconds stream =
      { state with service := service, stream := some stream } := by
  simp only [PoolState.receivePair, dropped]

theorem receivePair_of_emit {template : JobTemplate} (emitted : state.service.receive
      (getBlockTemplate publicKey state.rpc.newBlock milliseconds) stream.interval =
        (service, some template)) :
    state.receivePair publicKey milliseconds stream = { state with
      service := service.addJobs template stream.subscribers
      stream := some { stream with replay := some template } } := by
  simp only [PoolState.receivePair, emitted]

/-- A pair reaches the store and never the chain service. -/
theorem rpc_receivePair : (state.receivePair publicKey milliseconds stream).rpc = state.rpc := by
  rcases received : state.service.receive
    (getBlockTemplate publicKey state.rpc.newBlock milliseconds) stream.interval with ⟨service, emitted⟩
  cases emitted with
  | none => rw [receivePair_of_drop received]
  | some template => rw [receivePair_of_emit received]

end Pairs

/-- A poll with a new hash leaves the chain service with that hash. -/
theorem PoolState.rpc_poll_of_new (publicKey : Bytes) {state : PoolState} {hash : Bytes}
    (new : state.rpc.blockHash ≠ some hash) (milliseconds : ℕ) :
    (state.poll publicKey hash milliseconds).rpc =
      { state.rpc with newBlock := hash, blockHash := some hash } := by
  unfold PoolState.poll
  rw [if_neg new]
  cases state.stream with
  | none => rfl
  | some stream => simp only [rpc_receivePair]

/-- The poll of the pool changes the chain service as the callback of the chain service does. -/
theorem PoolState.rpc_poll (publicKey : Bytes) (state : PoolState) (hash : Bytes) (milliseconds : ℕ)
    (environment : History RpcAnswer RpcTask → (call : RpcCall) → RpcAnswer call)
    (answers : ∀ history, environment history .syncValidBlockhashes = .ok hash) :
    (state.poll publicKey hash milliseconds).rpc =
      (pollMiningInfoOnce.run environment state.rpc []).state := by
  unfold pollMiningInfoOnce getMiningInfo
  simp only [Program.bind_eq, Program.awaiting, Program.bind, Program.run, answers, Program.ofExcept,
    Program.load]
  by_cases known : state.rpc.blockHash = some hash
  · simp [known, PoolState.poll, Program.run]
  · have collected : Confined RpcCall.Hashless
        ((updateUserData.joined .turn).bind fun _ => (pure true : RpcProgram Bool)) :=
      (confined_turn confined_updateUserData).bind fun _ => trivial
    rw [PoolState.rpc_poll_of_new publicKey known]
    simp only [ne_eq, known, not_false_eq_true, if_true, Program.perform, Program.modify,
      Program.bind, Program.run, collected.run_state]

/-- The stream reaches the store as an emission, or it changes its own two fields only. -/
theorem ServiceRun.receive {service : JobsService} {history : JobsHistory}
    (run : ServiceRun service history) (block : BlockTemplate) (interval : ℤ) :
    match service.receive block interval with
    | (service', none) => ServiceRun service' history
    | (service', some template) => ServiceRun service' (.emitted template :: history) := by
  by_cases same : service.lastIntervalCount = some interval
  · rw [receive_of_same block same]
    exact .emit block true (.schedule service.lastIntervalCount true run)
  · cases skipped : service.skipNext with
    | true =>
        rw [receive_of_skipped block same skipped]
        exact .schedule service.lastIntervalCount false run
    | false =>
        rw [receive_of_other block same skipped]
        exact .emit block false (.schedule (some interval) service.skipNext run)

/-- Each subscriber adds one job for the newest template and removes none. -/
theorem ServiceRun.addJobs {service : JobsService} {history : JobsHistory} {template : JobTemplate}
    (run : ServiceRun service history) (latest : history.latestTemplate = some template)
    (subscribers : ℕ) :
    ∃ history', ServiceRun (service.addJobs template subscribers) history' ∧
      history'.latestTemplate = some template ∧
      (∀ pair ∈ history'.addedSinceClear, pair.2 = template ∨ pair ∈ history.addedSinceClear) ∧
      history.addedSinceClear ⊆ history'.addedSinceClear ∧
      (0 < subscribers → history'.addedSinceClear ≠ []) := by
  induction subscribers generalizing service history with
  | zero =>
      refine ⟨history, run, latest, fun pair => .inr, List.Subset.refl _, ?_⟩
      omega
  | succ subscribers ih =>
      obtain ⟨history', run', latest', jobs, kept, _⟩ := ih (.add template latest run) latest
      have added : ((service.addJob template).2, template) ∈ history'.addedSinceClear :=
        kept List.mem_cons_self
      refine ⟨history', run', latest', ?_, ?_, ?_⟩
      · intro pair member
        rcases jobs pair member with same | earlier
        · exact .inl same
        · rcases List.mem_cons.mp earlier with rfl | earlier
          · exact .inl rfl
          · exact .inr earlier
      · intro pair member
        exact kept (List.mem_cons_of_mem _ member)
      · intro _
        exact List.ne_nil_of_mem added

/-- A pair is dropped, or its template becomes the newest one and every subscriber adds a job. -/
inductive PairReceived (state : PoolState) (stream : JobStream) (history : JobsHistory) :
    PoolState → Prop where
  | dropped {after} (different : state.service.lastIntervalCount ≠ some stream.interval)
      (run : ServiceRun after.service history)
      (replay : after.stream.bind JobStream.replay = stream.replay) :
      PairReceived state stream history after
  | emitted {after} (template : JobTemplate) (history' : JobsHistory)
      (run : ServiceRun after.service history')
      (replay : after.stream.bind JobStream.replay = some template)
      (latest : history'.latestTemplate = some template)
      (current : template.block.currentblockhash = state.rpc.newBlock.toHex)
      (added : history'.addedSinceClear ≠ [])
      (jobs : ∀ pair ∈ history'.addedSinceClear, pair.2 = template ∨
        state.service.lastIntervalCount ≠ some stream.interval ∧ pair ∈ history.addedSinceClear)
      (kept : state.service.lastIntervalCount ≠ some stream.interval →
        history.addedSinceClear ⊆ history'.addedSinceClear) :
      PairReceived state stream history after

theorem receivePair_received (publicKey : Bytes) (milliseconds : ℕ) {state : PoolState}
    (stream : JobStream) {history : JobsHistory} (run : ServiceRun state.service history) :
    PairReceived state stream history (state.receivePair publicKey milliseconds stream) := by
  have received := run.receive (getBlockTemplate publicKey state.rpc.newBlock milliseconds)
    stream.interval
  by_cases same : state.service.lastIntervalCount = some stream.interval
  · have clears := receive_of_same (getBlockTemplate publicKey state.rpc.newBlock milliseconds) same
    rw [clears] at received
    obtain ⟨history', run', latest, jobs, kept, added⟩ :=
      received.addJobs rfl stream.subscribers
    rw [receivePair_of_emit clears]
    apply PairReceived.emitted _ history' run' rfl latest rfl (added stream.subscribed)
    · intro pair member
      rcases jobs pair member with newest | earlier
      · exact .inl newest
      · cases earlier
    · exact fun different => absurd same different
  · cases skipped : state.service.skipNext with
    | true =>
        have drops := receive_of_skipped
          (getBlockTemplate publicKey state.rpc.newBlock milliseconds) same skipped
        rw [drops] at received
        rw [receivePair_of_drop drops]
        exact .dropped same received rfl
    | false =>
        have keeps := receive_of_other
          (getBlockTemplate publicKey state.rpc.newBlock milliseconds) same skipped
        rw [keeps] at received
        obtain ⟨history', run', latest, jobs, kept, added⟩ :=
          received.addJobs rfl stream.subscribers
        rw [receivePair_of_emit keeps]
        apply PairReceived.emitted _ history' run' rfl latest rfl (added stream.subscribed)
        · intro pair member
          rcases jobs pair member with newest | earlier
          · exact .inl newest
          · exact .inr ⟨same, earlier⟩
        · exact fun _ => kept

/-- All stored jobs and the replayed template belong to one block, and a replayed template has a
stored job. -/
structure Stocked (newBlock : Bytes) (replay : Option JobTemplate) (history : JobsHistory) : Prop where
  jobsCurrent : ∀ pair ∈ history.addedSinceClear, pair.2.block.currentblockhash = newBlock.toHex
  replayLatest : ∀ template, replay = some template → history.latestTemplate = some template
  replayCurrent : ∀ template, replay = some template →
    template.block.currentblockhash = newBlock.toHex
  replayAdded : replay.isSome → history.addedSinceClear ≠ []

/-- A received pair keeps the stock, and a repeated interval count restores it. -/
theorem PairReceived.stocked {state after : PoolState} {stream : JobStream} {history : JobsHistory}
    (received : PairReceived state stream history after)
    (stocked : state.service.lastIntervalCount = some stream.interval ∨
      Stocked state.rpc.newBlock stream.replay history) :
    ∃ history', ServiceRun after.service history' ∧
      Stocked state.rpc.newBlock (after.stream.bind JobStream.replay) history' := by
  cases received with
  | dropped different run replay =>
      refine ⟨history, run, ?_⟩
      rw [replay]
      exact stocked.resolve_left different
  | emitted template history' run replay latest current added jobs kept =>
      refine ⟨history', run, ?_⟩
      rw [replay]
      constructor
      · intro pair member
        rcases jobs pair member with newest | ⟨different, earlier⟩
        · rw [newest, current]
        · exact (stocked.resolve_left different).jobsCurrent pair earlier
      · rintro other same
        obtain rfl := Option.some.inj same
        exact latest
      · rintro other same
        obtain rfl := Option.some.inj same
        exact current
      · exact fun _ => added

/-- A pair with another interval count leaves every stored job in place. -/
theorem PairReceived.keeps {state after : PoolState} {stream : JobStream} {history : JobsHistory}
    (received : PairReceived state stream history after)
    (different : state.service.lastIntervalCount ≠ some stream.interval) :
    ∃ history', ServiceRun after.service history' ∧
      history.addedSinceClear ⊆ history'.addedSinceClear := by
  cases received with
  | dropped _ run _ => exact ⟨history, run, List.Subset.refl _⟩
  | emitted _ history' run _ _ _ _ _ kept => exact ⟨history', run, kept different⟩

/-- An inherited member of the jobs has no template, because no template id is `undefined`. -/
theorem ServiceInvariant.no_undefined_template {service : JobsService} {history : JobsHistory}
    (kept : ServiceInvariant service history) : service.getJobTemplateById none = none := by
  have absent : service.blocks "undefined" = none := by
    cases stored : service.blocks "undefined" with
    | none => rfl
    | some template =>
        obtain ⟨member, sameId⟩ := kept.blocksKeyed _ _ stored
        obtain ⟨n, _, printed⟩ := kept.templatesIssued template member
        exact absurd (printed.symm.trans sameId) (hexText_ne_of_not_digits (by decide) n)
  show service.blocks.read "undefined" = none
  rw [Dictionary.read, absent]
  decide

/-- A submission finds the templates of the jobs that were added since the last clear. -/
theorem ServiceInvariant.lookupTemplate_iff {service : JobsService} {history : JobsHistory}
    (kept : ServiceInvariant service history) {jobId : String} {template : JobTemplate} :
    service.lookupTemplate jobId = some template ↔
      ∃ job, (job, template) ∈ history.addedSinceClear ∧ job.jobId = jobId := by
  have own : ∀ job, service.getJobById jobId = some (.own job) ↔ service.jobs jobId = some job := by
    intro job
    exact Dictionary.read_eq_own
  constructor
  · intro found
    unfold JobsService.lookupTemplate at found
    cases entry : service.getJobById jobId with
    | none => simp [entry] at found
    | some job =>
        cases job with
        | inherited => simp [entry, jobTemplateIdOf, kept.no_undefined_template] at found
        | own job =>
            obtain ⟨stored, member, sameId⟩ := (kept.jobsExact _ _).mp ((own job).mp entry)
            have template' : service.getJobTemplateById (some job.jobTemplateId) =
                some (.own stored) := Dictionary.read_eq_own.mpr (kept.jobsStored _ member)
            simp only [entry, jobTemplateIdOf, template', Option.some.injEq] at found
            exact ⟨job, found ▸ member, sameId⟩
  · rintro ⟨job, member, sameId⟩
    have entry := (own job).mpr ((kept.jobsExact _ _).mpr ⟨template, member, sameId⟩)
    have stored : service.getJobTemplateById (some job.jobTemplateId) = some (.own template) :=
      Dictionary.read_eq_own.mpr (kept.jobsStored _ member)
    simp only [JobsService.lookupTemplate, entry, jobTemplateIdOf, stored]

/-- The stream, the store, and the chain service stay on one block. -/
structure PoolInvariant (state : PoolState) (history : JobsHistory) : Prop where
  run : ServiceRun state.service history
  stocked : Stocked state.rpc.newBlock (state.stream.bind JobStream.replay) history
  emitted : state.rpc.newBlock = state.rpc.blockHash.getD []

theorem poolInvariant_initial : PoolInvariant {} [] := by
  refine ⟨.initial, ⟨?_, ?_, ?_, ?_⟩, rfl⟩
  · intro pair member
    cases member
  · intro template impossible
    cases impossible
  · intro template impossible
    cases impossible
  · intro impossible
    cases impossible

theorem PoolInvariant.fresh {state : PoolState} {history : JobsHistory}
    (kept : PoolInvariant state history) : state.Fresh := by
  intro hash current jobId template found
  obtain ⟨job, member, _⟩ := kept.run.invariant.lookupTemplate_iff.mp found
  rw [kept.stocked.jobsCurrent _ member, kept.emitted, current]
  rfl

/-- A pair of the current block keeps the pool on its block. -/
theorem PoolInvariant.receivePair (publicKey : Bytes) (milliseconds : ℕ) {state : PoolState}
    {history : JobsHistory} (kept : PoolInvariant state history) (stream : JobStream)
    (replay : Stocked state.rpc.newBlock stream.replay history) :
    ∃ history', PoolInvariant (state.receivePair publicKey milliseconds stream) history' := by
  obtain ⟨history', run, stocked⟩ :=
    (receivePair_received publicKey milliseconds stream kept.run).stocked (.inr replay)
  refine ⟨history', run, ?_, ?_⟩
  · rw [rpc_receivePair]
    exact stocked
  · rw [rpc_receivePair]
    exact kept.emitted

/-- No stored job remains exactly when no job was added since the last clear. -/
theorem ServiceInvariant.no_jobs_iff {service : JobsService} {history : JobsHistory}
    (kept : ServiceInvariant service history) :
    (∀ jobId, service.jobs jobId = none) ↔ history.addedSinceClear = [] := by
  constructor
  · intro empty
    apply List.eq_nil_iff_forall_not_mem.mpr
    intro pair member
    have stored := (kept.jobsExact pair.1.jobId pair.1).mpr ⟨pair.2, member, rfl⟩
    rw [empty] at stored
    cases stored
  · intro none jobId
    cases stored : service.jobs jobId with
    | none => rfl
    | some job =>
        obtain ⟨template, member, _⟩ := (kept.jobsExact _ _).mp stored
        rw [none] at member
        cases member

/-- Without stored jobs no template is replayed, so any block may come next. -/
theorem Stocked.of_empty {newBlock : Bytes} {replay : Option JobTemplate} {history : JobsHistory}
    (stocked : Stocked newBlock replay history) (empty : history.addedSinceClear = []) (next : Bytes) :
    Stocked next replay history := by
  have forgotten : replay = none := by
    cases replay with
    | none => rfl
    | some template => exact absurd empty (stocked.replayAdded rfl)
  subst forgotten
  refine ⟨?_, stocked.replayLatest, ?_, stocked.replayAdded⟩
  · rw [empty]
    intro pair member
    cases member
  · intro template impossible
    cases impossible

/-- An announced poll keeps the pool on one block. -/
theorem PoolInvariant.poll (publicKey : Bytes) {state : PoolState} {history : JobsHistory}
    (kept : PoolInvariant state history) (hash : BlockHash) (milliseconds : ℕ)
    (announced : state.Announces (.poll hash milliseconds)) :
    ∃ history', PoolInvariant (state.poll publicKey hash.1 milliseconds) history' := by
  by_cases known : state.rpc.blockHash = some hash.1
  · refine ⟨history, ?_⟩
    rw [PoolState.poll, if_pos known]
    exact kept
  · have reached : (∃ stream, state.stream = some stream ∧
        state.service.lastIntervalCount = some stream.interval) ∨
        Stocked hash.1 (state.stream.bind JobStream.replay) history := by
      rcases announced with same | running | empty
      · exact absurd same known
      · exact .inl running
      · exact .inr (kept.stocked.of_empty (kept.run.invariant.no_jobs_iff.mp empty) hash.1)
    unfold PoolState.poll
    rw [if_neg known]
    cases live : state.stream with
    | none =>
        have stocked : Stocked hash.1 (state.stream.bind JobStream.replay) history := by
          apply reached.resolve_left
          rintro ⟨stream, running, _⟩
          rw [live] at running
          cases running
        rw [live] at stocked
        exact ⟨history, kept.run, by simpa [live] using stocked, rfl⟩
    | some stream =>
        let announcing := { state with rpc := { state.rpc with newBlock := hash.1 } }
        have restored : announcing.service.lastIntervalCount = some stream.interval ∨
            Stocked announcing.rpc.newBlock stream.replay history := by
          rcases reached with ⟨running, found, last⟩ | stocked
          · rw [live] at found
            obtain rfl := Option.some.inj found
            exact .inl last
          · rw [live] at stocked
            exact .inr stocked
        have started : ServiceRun announcing.service history := kept.run
        obtain ⟨history', run, stocked⟩ :=
          (receivePair_received publicKey milliseconds stream started).stocked restored
        refine ⟨history', run, ?_, ?_⟩
        · simp only [rpc_receivePair]
          exact stocked
        · simp only [rpc_receivePair]
          rfl

/-- A subscriber adds a job for the replayed template, or it restarts the stream with the newest
block. -/
theorem PoolInvariant.subscribe (publicKey : Bytes) {state : PoolState} {history : JobsHistory}
    (kept : PoolInvariant state history) (milliseconds : ℕ) :
    ∃ history', PoolInvariant (state.subscribe publicKey milliseconds) history' := by
  have stocked := kept.stocked
  unfold PoolState.subscribe
  cases live : state.stream with
  | none =>
      rw [live] at stocked
      exact kept.receivePair publicKey milliseconds _ stocked
  | some stream =>
      rw [live] at stocked
      have stocked : Stocked state.rpc.newBlock stream.replay history := stocked
      dsimp only
      cases replay : stream.replay with
      | none =>
          rw [replay] at stocked
          exact ⟨history, kept.run, by simpa [replay] using stocked, kept.emitted⟩
      | some template =>
          rw [replay] at stocked
          have latest := stocked.replayLatest template rfl
          refine ⟨_, .add template latest kept.run, ⟨?_, ?_, ?_, ?_⟩, kept.emitted⟩
          · intro pair member
            rcases List.mem_cons.mp member with rfl | earlier
            · exact stocked.replayCurrent template rfl
            · exact stocked.jobsCurrent pair earlier
          · intro other same
            obtain rfl := Option.some.inj same
            exact latest
          · intro other same
            exact stocked.replayCurrent other same
          · exact fun _ => List.cons_ne_nil _ _

/-- A subscriber that leaves changes the stream only. -/
theorem PoolInvariant.unsubscribe {state : PoolState} {history : JobsHistory}
    (kept : PoolInvariant state history) : PoolInvariant state.unsubscribe history := by
  have stocked := kept.stocked
  unfold PoolState.unsubscribe
  cases live : state.stream with
  | none => exact kept
  | some stream =>
      rw [live] at stocked
      dsimp only
      split
      · exact ⟨kept.run, stocked, kept.emitted⟩
      · refine ⟨kept.run, ⟨stocked.jobsCurrent, ?_, ?_, ?_⟩, kept.emitted⟩
        · intro template impossible
          cases impossible
        · intro template impossible
          cases impossible
        · intro impossible
          cases impossible

/-- Every announced event keeps the pool on one block. -/
theorem PoolInvariant.step (publicKey : Bytes) {state : PoolState} {history : JobsHistory}
    (kept : PoolInvariant state history) {event : PoolEvent} (announced : state.Announces event) :
    ∃ history', PoolInvariant (state.step publicKey event) history' := by
  cases event with
  | poll hash milliseconds => exact kept.poll publicKey hash milliseconds announced
  | subscribe milliseconds => exact kept.subscribe publicKey milliseconds
  | unsubscribe => exact ⟨history, kept.unsubscribe⟩
  | submit jobId => exact ⟨history, kept⟩
  | tick milliseconds =>
      have stocked := kept.stocked
      unfold PoolState.step
      cases live : state.stream with
      | none => exact ⟨history, kept⟩
      | some stream =>
          rw [live] at stocked
          exact kept.receivePair publicKey milliseconds _ stocked

/-- An unannounced poll leaves a job of the older block in the store. -/
theorem PoolInvariant.stale (publicKey : Bytes) {state : PoolState} {history : JobsHistory}
    (kept : PoolInvariant state history) {event : PoolEvent} (silent : ¬ state.Announces event) :
    ¬ (state.step publicKey event).Fresh := by
  cases event with
  | tick milliseconds => exact absurd trivial silent
  | subscribe milliseconds => exact absurd trivial silent
  | unsubscribe => exact absurd trivial silent
  | submit jobId => exact absurd trivial silent
  | poll hash milliseconds =>
      have new : state.rpc.blockHash ≠ some hash.1 := fun same => silent (.inl same)
      have unannounced : ∀ stream, state.stream = some stream →
          state.service.lastIntervalCount ≠ some stream.interval := by
        intro stream live last
        exact silent (.inr (.inl ⟨stream, live, last⟩))
      have stored : history.addedSinceClear ≠ [] := by
        intro empty
        exact silent (.inr (.inr (kept.run.invariant.no_jobs_iff.mpr empty)))
      have different : state.rpc.newBlock ≠ hash.1 := by
        rw [kept.emitted]
        cases current : state.rpc.blockHash with
        | none =>
            intro same
            have length := hash.2
            rw [← same] at length
            cases length
        | some old =>
            intro same
            exact new (by rw [current, show old = hash.1 from same])
      have remains : ∃ history', ServiceRun (state.poll publicKey hash.1 milliseconds).service history' ∧
          history.addedSinceClear ⊆ history'.addedSinceClear := by
        unfold PoolState.poll
        rw [if_neg new]
        cases live : state.stream with
        | none => exact ⟨history, kept.run, List.Subset.refl _⟩
        | some stream =>
            let announcing := { state with rpc := { state.rpc with newBlock := hash.1 } }
            have started : ServiceRun announcing.service history := kept.run
            exact (receivePair_received publicKey milliseconds stream started).keeps
              (unannounced stream live)
      obtain ⟨history', run, kept'⟩ := remains
      obtain ⟨pair, member⟩ := List.exists_mem_of_ne_nil _ stored
      intro fresh
      have found : (state.poll publicKey hash.1 milliseconds).service.lookupTemplate pair.1.jobId =
          some pair.2 := run.invariant.lookupTemplate_iff.mpr ⟨pair.1, kept' member, rfl⟩
      have rpc := PoolState.rpc_poll_of_new publicKey new milliseconds
      have current := fresh hash.1 (by rw [PoolState.step, rpc]) _ _ found
      rw [kept.stocked.jobsCurrent pair member] at current
      exact different (Bytes.toHex_injective current)

/-- From a pool on one block every later state is fresh exactly when every later poll is announced. -/
theorem PoolInvariant.fresh_iff (publicKey : Bytes) {state : PoolState} {history : JobsHistory}
    (kept : PoolInvariant state history) (events : List PoolEvent) :
    (∀ past, past <+: events → (state.run publicKey past).Fresh) ↔
      ∀ past event, past ++ [event] <+: events → (state.run publicKey past).Announces event := by
  induction events generalizing state history with
  | nil =>
      constructor
      · intro _ past event impossible
        simp at impossible
      · intro _ past empty
        rw [List.prefix_nil.mp empty]
        exact kept.fresh
  | cons event events ih =>
      by_cases announced : state.Announces event
      · obtain ⟨history', kept'⟩ := kept.step publicKey announced
        constructor
        · intro fresh past next before
          cases past with
          | nil =>
              obtain rfl : next = event := by simpa using before
              exact announced
          | cons first past =>
              obtain ⟨rfl, rest⟩ := List.cons_prefix_cons.mp before
              apply (ih kept').mp _ past next rest
              intro past before
              exact fresh (_ :: past) (List.cons_prefix_cons.mpr ⟨rfl, before⟩)
        · intro announces past before
          cases past with
          | nil => exact kept.fresh
          | cons first past =>
              obtain ⟨rfl, rest⟩ := List.cons_prefix_cons.mp before
              apply (ih kept').mpr _ past rest
              intro past next before
              exact announces (_ :: past) next (List.cons_prefix_cons.mpr ⟨rfl, before⟩)
      · have begins : [] ++ [event] <+: event :: events := ⟨events, rfl⟩
        constructor
        · intro fresh
          exact absurd (fresh [event] begins) (kept.stale publicKey announced)
        · intro announces
          exact absurd (announces [] event begins) announced

/-- In every run of the pool the found jobs belong to the verified block if and only if each poll with
a new hash is announced to the stream or finds no stored job. -/
theorem pool_fresh_iff (publicKey : Bytes) (events : List PoolEvent) :
    (∀ past, past <+: events → (PoolState.run publicKey {} past).Fresh) ↔
      ∀ past event, past ++ [event] <+: events →
        (PoolState.run publicKey {} past).Announces event :=
  poolInvariant_initial.fresh_iff publicKey events

/-- All subscribers leave, and the next block finds the job of the block before it. -/
theorem pool_keeps_stale_job :
    ¬ ∀ past, past <+: [.poll ⟨List.replicate 32 1, rfl⟩ 0, .subscribe 1, .unsubscribe,
      .poll ⟨List.replicate 32 2, rfl⟩ 2] →
        (PoolState.run (List.replicate 32 7) {} past).Fresh := by
  intro fresh
  have announced := (poolInvariant_initial.fresh_iff _ _).mp fresh [.poll ⟨List.replicate 32 1, rfl⟩ 0, .subscribe 1,
    .unsubscribe] _ (List.prefix_refl _)
  rcases announced with same | ⟨stream, live, _⟩ | empty
  · exact absurd same (by decide)
  · cases live
  · exact absurd (empty "2") (by decide)

end ComptoMiningPool
