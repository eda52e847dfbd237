import ComptoMiningPool.Pool.Freshness

/-
This file models which templates the stream hands to its subscribers. It proves when a new subscriber
is handed a template at once, and that two ticks never pass without one.
-/

namespace ComptoMiningPool

open JavaScript

/-- The newest block and the interval count reach the stream together at some time of the clock. -/
structure PairSent where
  blockHash : Bytes
  milliseconds : ℕ
  stream : JobStream

/-- A pair that passes the filter leaves a stored template for every subscriber. -/
structure PairEmitted where
  service : JobsService
  template : JobTemplate
  subscribers : ℕ

namespace PoolState

/-- A new hash and a tick send a pair on a running stream. A subscriber of a stopped stream sends the
first pair. -/
def pairSent (state : PoolState) : PoolEvent → Option PairSent
  | .poll hash milliseconds =>
      if state.rpc.blockHash = some hash.1 then none
      else state.stream.map fun stream => ⟨hash.1, milliseconds, stream⟩
  | .tick milliseconds => state.stream.map fun stream =>
      ⟨state.rpc.newBlock, milliseconds, { stream with interval := stream.interval + 1 }⟩
  | .subscribe milliseconds => match state.stream with
      | none => some ⟨state.rpc.newBlock, milliseconds, ⟨-1, 1, Nat.one_pos, none⟩⟩
      | some _ => none
  | .unsubscribe => none
  | .submit _ => none

/-- The service stores a template for the pair or drops the pair. -/
def receiveSent (publicKey : Bytes) (service : JobsService) (pair : PairSent) :
    JobsService × Option JobTemplate :=
  service.receive (getBlockTemplate publicKey pair.blockHash pair.milliseconds) pair.stream.interval

/-- The template that an event hands to the subscribers of the stream. -/
def emission (publicKey : Bytes) (state : PoolState) (event : PoolEvent) : Option PairEmitted :=
  match state.pairSent event with
  | none => none
  | some pair => match receiveSent publicKey state.service pair with
      | (_, none) => none
      | (service, some template) => some ⟨service, template, pair.stream.subscribers⟩

/-- The template that a new subscriber is handed while it subscribes. A late one is handed the newest
template of the stream. -/
def welcome (publicKey : Bytes) (state : PoolState) (milliseconds : ℕ) : Option JobTemplate :=
  match state.stream with
  | none => (state.emission publicKey (.subscribe milliseconds)).map PairEmitted.template
  | some stream => stream.replay

/-- The templates that a run hands to the subscribers, oldest first. -/
def emissions (publicKey : Bytes) : PoolState → List PoolEvent → List JobTemplate
  | _, [] => []
  | state, event :: events =>
      ((state.emission publicKey event).map PairEmitted.template).toList ++
        emissions publicKey (state.step publicKey event) events

/-- A subscriber keeps its subscription while the stream does not stop. -/
def Runs (publicKey : Bytes) (state : PoolState) (events : List PoolEvent) : Prop :=
  ∀ past, past <+: events → (state.run publicKey past).stream.isSome

/-- A new subscriber is handed a template at once, and then at least one from each tick to the next. -/
structure Delivers (publicKey : Bytes) (state : PoolState) (milliseconds : ℕ) : Prop where
  atOnce : (state.welcome publicKey milliseconds).isSome
  everyTwoTicks : ∀ before first between second,
    (state.subscribe publicKey milliseconds).Runs publicKey
      (before ++ .tick first :: (between ++ [.tick second])) →
    emissions publicKey ((state.subscribe publicKey milliseconds).run publicKey before)
      (.tick first :: (between ++ [.tick second])) ≠ []

/-- A stopped stream must not have left a pair to skip, unless its last count was that of a start. A
running stream must have emitted since its start. -/
def HandsOn (state : PoolState) : Prop :=
  match state.stream with
  | none => state.service.skipNext = true → state.service.lastIntervalCount = some (-1)
  | some stream => ∃ count, state.service.lastIntervalCount = some count ∧ count ≤ stream.interval

end PoolState

section Steps

variable {publicKey : Bytes} {state : PoolState} {event : PoolEvent} {pair : PairSent}
  {service : JobsService} {template : JobTemplate}

@[simp] theorem addJobs_lastIntervalCount (service : JobsService) (subscribers : ℕ) :
    (service.addJobs template subscribers).lastIntervalCount = service.lastIntervalCount := by
  induction subscribers generalizing service with
  | zero => rfl
  | succ subscribers ih => exact ih (service.addJob template).1

@[simp] theorem addJobs_skipNext (service : JobsService) (subscribers : ℕ) :
    (service.addJobs template subscribers).skipNext = service.skipNext := by
  induction subscribers generalizing service with
  | zero => rfl
  | succ subscribers ih => exact ih (service.addJob template).1

/-- A sent pair is received by the service as it was before the event. -/
theorem step_of_pairSent (sent : state.pairSent event = some pair) :
    ∃ announced : PoolState, announced.service = state.service ∧
      announced.rpc.newBlock = pair.blockHash ∧
      (state.step publicKey event).service =
        (announced.receivePair publicKey pair.milliseconds pair.stream).service ∧
      (state.step publicKey event).stream =
        (announced.receivePair publicKey pair.milliseconds pair.stream).stream := by
  cases event with
  | poll hash milliseconds =>
      simp only [PoolState.pairSent] at sent
      split at sent
      · cases sent
      · rename_i new
        cases live : state.stream with
        | none =>
            rw [live] at sent
            cases sent
        | some stream =>
            rw [live] at sent
            obtain rfl := Option.some.inj sent
            refine ⟨{ state with rpc := { state.rpc with newBlock := hash.1 } }, rfl, rfl, ?_, ?_⟩
            · simp only [PoolState.step, PoolState.poll, if_neg new, live]
            · simp only [PoolState.step, PoolState.poll, if_neg new, live]
  | tick milliseconds =>
      cases live : state.stream with
      | none =>
          simp [PoolState.pairSent, live] at sent
      | some stream =>
          rw [PoolState.pairSent, live] at sent
          obtain rfl := Option.some.inj sent
          refine ⟨state, rfl, rfl, ?_, ?_⟩
          · simp only [PoolState.step, live]
          · simp only [PoolState.step, live]
  | subscribe milliseconds =>
      cases live : state.stream with
      | some stream =>
          simp [PoolState.pairSent, live] at sent
      | none =>
          simp only [PoolState.pairSent, live] at sent
          obtain rfl := Option.some.inj sent
          refine ⟨state, rfl, rfl, ?_, ?_⟩
          · simp only [PoolState.step, PoolState.subscribe, live]
          · simp only [PoolState.step, PoolState.subscribe, live]
  | unsubscribe => cases sent
  | submit jobId => cases sent

/-- A dropped pair reaches the interval count of the stream and the schedule of the service. -/
theorem step_of_dropped (sent : state.pairSent event = some pair)
    (dropped : PoolState.receiveSent publicKey state.service pair = (service, none)) :
    (state.step publicKey event).service = service ∧
      (state.step publicKey event).stream = some pair.stream := by
  obtain ⟨announced, sameService, newBlock, serviceAfter, streamAfter⟩ :=
    @step_of_pairSent publicKey _ _ _ sent
  rw [PoolState.receiveSent, ← sameService, ← newBlock] at dropped
  rw [serviceAfter, streamAfter, receivePair_of_drop dropped]
  exact ⟨rfl, rfl⟩

/-- An emitted template is replayed, and every subscriber adds its job for it. -/
theorem step_of_emitted (sent : state.pairSent event = some pair)
    (emitted : PoolState.receiveSent publicKey state.service pair = (service, some template)) :
    (state.step publicKey event).service = service.addJobs template pair.stream.subscribers ∧
      (state.step publicKey event).stream = some { pair.stream with replay := some template } := by
  obtain ⟨announced, sameService, newBlock, serviceAfter, streamAfter⟩ :=
    @step_of_pairSent publicKey _ _ _ sent
  rw [PoolState.receiveSent, ← sameService, ← newBlock] at emitted
  rw [serviceAfter, streamAfter, receivePair_of_emit emitted]
  exact ⟨rfl, rfl⟩

/-- An event without a pair leaves the schedule of the service and the count and the template of a
stream that stays. -/
theorem step_of_quiet (quiet : state.pairSent event = none) :
    (state.step publicKey event).service.lastIntervalCount = state.service.lastIntervalCount ∧
      (state.step publicKey event).service.skipNext = state.service.skipNext ∧
      ∀ stream', (state.step publicKey event).stream = some stream' → ∃ stream,
        state.stream = some stream ∧ stream'.interval = stream.interval ∧
          stream'.replay = stream.replay := by
  cases event with
  | poll hash milliseconds =>
      simp only [PoolState.pairSent] at quiet
      split at quiet
      · rename_i known
        rw [PoolState.step, PoolState.poll, if_pos known]
        exact ⟨rfl, rfl, fun stream live => ⟨stream, live, rfl, rfl⟩⟩
      · rename_i new
        have stopped : state.stream = none := Option.map_eq_none_iff.mp quiet
        simp only [PoolState.step, PoolState.poll, if_neg new, stopped]
        refine ⟨trivial, trivial, ?_⟩
        intro stream impossible
        cases impossible
  | tick milliseconds =>
      have stopped : state.stream = none := Option.map_eq_none_iff.mp quiet
      simp only [PoolState.step, stopped]
      refine ⟨trivial, trivial, ?_⟩
      intro stream impossible
      cases impossible
  | subscribe milliseconds =>
      cases live : state.stream with
      | none => simp [PoolState.pairSent, live] at quiet
      | some stream =>
          simp only [PoolState.step, PoolState.subscribe, live]
          cases newest : stream.replay with
          | none =>
              refine ⟨rfl, rfl, ?_⟩
              intro joined same
              obtain rfl := Option.some.inj same
              exact ⟨stream, rfl, rfl, newest.symm⟩
          | some template =>
              refine ⟨rfl, rfl, ?_⟩
              intro joined same
              obtain rfl := Option.some.inj same
              exact ⟨stream, rfl, rfl, newest.symm⟩
  | unsubscribe =>
      rw [PoolState.step, PoolState.unsubscribe]
      cases live : state.stream with
      | none =>
          refine ⟨rfl, rfl, ?_⟩
          intro stream impossible
          rw [live] at impossible
          cases impossible
      | some stream =>
          dsimp only
          split
          · refine ⟨rfl, rfl, ?_⟩
            intro left same
            obtain rfl := Option.some.inj same
            exact ⟨stream, rfl, rfl, rfl⟩
          · refine ⟨rfl, rfl, ?_⟩
            intro stream impossible
            cases impossible
  | submit jobId => exact ⟨rfl, rfl, fun stream live => ⟨stream, live, rfl, rfl⟩⟩

/-- The stream of a pair has just started, or it is the running one with its count or the next. -/
theorem stream_of_pairSent (sent : state.pairSent event = some pair) :
    (state.stream = none ∧ pair.stream.interval = -1 ∧ pair.stream.replay = none) ∨
      ∃ stream, state.stream = some stream ∧ pair.stream.replay = stream.replay ∧
        (pair.stream.interval = stream.interval ∨ pair.stream.interval = stream.interval + 1) := by
  cases event with
  | poll hash milliseconds =>
      simp only [PoolState.pairSent] at sent
      split at sent
      · cases sent
      · obtain ⟨stream, live, rfl⟩ := Option.map_eq_some_iff.mp sent
        exact .inr ⟨stream, live, rfl, .inl rfl⟩
  | tick milliseconds =>
      obtain ⟨stream, live, rfl⟩ := Option.map_eq_some_iff.mp sent
      exact .inr ⟨stream, live, rfl, .inr rfl⟩
  | subscribe milliseconds =>
      cases live : state.stream with
      | none =>
          simp only [PoolState.pairSent, live] at sent
          obtain rfl := Option.some.inj sent
          exact .inl ⟨rfl, rfl, rfl⟩
      | some stream => simp [PoolState.pairSent, live] at sent
  | unsubscribe => cases sent
  | submit jobId => cases sent

end Steps

/-- The service drops a pair that it has to skip, or it emits a template and keeps the count. -/
inductive Received (service : JobsService) (block : BlockTemplate) (interval : ℤ) :
    JobsService × Option JobTemplate → Prop where
  | dropped (different : service.lastIntervalCount ≠ some interval) (skipped : service.skipNext = true) :
      Received service block interval ({ service with skipNext := false }, none)
  | emitted {after template} (due : service.lastIntervalCount = some interval ∨ service.skipNext = false)
      (last : after.lastIntervalCount = some interval) (current : template.block = block) :
      Received service block interval (after, some template)

theorem receive_received (service : JobsService) (block : BlockTemplate) (interval : ℤ) :
    Received service block interval (service.receive block interval) := by
  by_cases same : service.lastIntervalCount = some interval
  · rw [receive_of_same block same]
    apply Received.emitted (.inl same)
    · rw [emitTemplate_lastIntervalCount]
      exact same
    · rfl
  · cases skipped : service.skipNext with
    | true =>
        rw [receive_of_skipped block same skipped]
        exact .dropped same skipped
    | false =>
        rw [receive_of_other block same skipped]
        apply Received.emitted (.inr skipped)
        · rw [emitTemplate_lastIntervalCount]
        · rfl

/-- The counts never fall below that of a start. A running stream has emitted with its count or an
earlier one, or it has dropped its first pair only. -/
structure Paced (state : PoolState) : Prop where
  counted : ∀ count, state.service.lastIntervalCount = some count → -1 ≤ count
  started : ∀ stream, state.stream = some stream → -1 ≤ stream.interval ∧
    (stream.replay.isSome ∧
        (∃ count, state.service.lastIntervalCount = some count ∧ count ≤ stream.interval) ∨
      stream.replay = none ∧ stream.interval = -1 ∧ state.service.skipNext = false ∧
        ∀ count, state.service.lastIntervalCount = some count → -1 < count)

theorem paced_initial : Paced {} := by
  constructor
  · intro count impossible
    cases impossible
  · intro stream impossible
    cases impossible

/-- Every event keeps the pace. -/
theorem Paced.step (publicKey : Bytes) {state : PoolState} (paced : Paced state) (event : PoolEvent) :
    Paced (state.step publicKey event) := by
  cases sent : state.pairSent event with
  | none =>
      obtain ⟨last, skip, stays⟩ := @step_of_quiet publicKey _ _ sent
      constructor
      · rw [last]
        exact paced.counted
      · intro stream' live'
        obtain ⟨stream, live, interval, replay⟩ := stays stream' live'
        rw [last, skip, interval, replay]
        exact paced.started stream live
  | some pair =>
      have received := receive_received state.service
        (getBlockTemplate publicKey pair.blockHash pair.milliseconds) pair.stream.interval
      have bound : -1 ≤ pair.stream.interval := by
        rcases stream_of_pairSent sent with ⟨_, interval, _⟩ | ⟨stream, live, _, interval⟩
        · omega
        · have := (paced.started stream live).1
          omega
      change Received _ _ _ (PoolState.receiveSent publicKey state.service pair) at received
      cases outcome : PoolState.receiveSent publicKey state.service pair with
      | mk service emitted =>
          rw [outcome] at received
          cases received with
          | dropped different skipped =>
              obtain ⟨after, stream'⟩ := step_of_dropped sent outcome
              constructor
              · rw [after]
                exact paced.counted
              · rw [after, stream']
                intro stream same
                obtain rfl := Option.some.inj same
                refine ⟨bound, ?_⟩
                rcases stream_of_pairSent sent with ⟨_, interval, replay⟩ | ⟨stream, live, replay, interval⟩
                · refine .inr ⟨replay, interval, rfl, ?_⟩
                  intro count last
                  have := paced.counted count last
                  have : count ≠ -1 := by
                    rintro rfl
                    rw [interval] at different
                    exact different last
                  omega
                · rcases (paced.started stream live).2 with ⟨newest, count, last, le⟩ | ⟨_, _, skip, _⟩
                  · refine .inl ⟨replay ▸ newest, count, last, ?_⟩
                    omega
                  · rw [skip] at skipped
                    cases skipped
          | @emitted _ template due last current =>
              obtain ⟨after, stream'⟩ := step_of_emitted sent outcome
              constructor
              · rw [after, addJobs_lastIntervalCount, last]
                intro count same
                obtain rfl := Option.some.inj same
                exact bound
              · rw [after, stream', addJobs_lastIntervalCount, last]
                intro stream same
                obtain rfl := Option.some.inj same
                exact ⟨bound, .inl ⟨rfl, _, rfl, Int.le_refl _⟩⟩

theorem Paced.run (publicKey : Bytes) {state : PoolState} (paced : Paced state)
    (events : List PoolEvent) : Paced (state.run publicKey events) := by
  induction events generalizing state with
  | nil => exact paced
  | cons event events ih => exact ih (paced.step publicKey event)

section Emissions

variable {publicKey : Bytes} {state : PoolState} {event : PoolEvent} {events : List PoolEvent}
  {pair : PairSent}

/-- A sent pair is emitted exactly when its count is the last one or nothing has to be skipped. -/
theorem isSome_emission_iff (sent : state.pairSent event = some pair) :
    (state.emission publicKey event).isSome ↔
      state.service.lastIntervalCount = some pair.stream.interval ∨ state.service.skipNext = false := by
  have received := receive_received state.service
    (getBlockTemplate publicKey pair.blockHash pair.milliseconds) pair.stream.interval
  change Received _ _ _ (PoolState.receiveSent publicKey state.service pair) at received
  rw [PoolState.emission, sent]
  dsimp only
  cases outcome : PoolState.receiveSent publicKey state.service pair with
  | mk service emitted =>
      rw [outcome] at received
      cases received with
      | dropped different skipped => simp [different, skipped]
      | emitted due last current => simpa using due

/-- A new subscriber is handed a template at once exactly when the stream hands on. -/
theorem isSome_welcome_iff (paced : Paced state) (milliseconds : ℕ) :
    (state.welcome publicKey milliseconds).isSome ↔ state.HandsOn := by
  unfold PoolState.welcome PoolState.HandsOn
  cases live : state.stream with
  | none =>
      have sent : state.pairSent (.subscribe milliseconds) =
          some ⟨state.rpc.newBlock, milliseconds, ⟨-1, 1, Nat.one_pos, none⟩⟩ := by
        simp only [PoolState.pairSent, live]
      dsimp only
      rw [Option.isSome_map, isSome_emission_iff sent]
      cases state.service.skipNext <;> simp
  | some stream =>
      dsimp only
      rcases (paced.started stream live).2 with ⟨newest, emitted⟩ | ⟨newest, interval, _, stale⟩
      · exact ⟨fun _ => emitted, fun _ => newest⟩
      · rw [newest, interval]
        constructor
        · intro impossible
          cases impossible
        · rintro ⟨count, last, le⟩
          have := stale count last
          omega

/-- A dropped pair leaves nothing to skip. -/
theorem skipNext_of_dropped (sent : state.pairSent event = some pair)
    (dropped : state.emission publicKey event = none) :
    (state.step publicKey event).service.skipNext = false := by
  have refused := (@isSome_emission_iff publicKey _ _ _ sent).not.mp (by rw [dropped]; decide)
  rw [not_or, Bool.not_eq_false] at refused
  have outcome : PoolState.receiveSent publicKey state.service pair =
      ({ state.service with skipNext := false }, none) :=
    receive_of_skipped _ refused.1 refused.2
  rw [(step_of_dropped sent outcome).1]

/-- A service without a pair to skip keeps nothing to skip until it emits. -/
theorem skipNext_of_no_emission (ready : state.service.skipNext = false)
    (silent : state.emission publicKey event = none) :
    (state.step publicKey event).service.skipNext = false := by
  cases sent : state.pairSent event with
  | none => rw [(step_of_quiet sent).2.1, ready]
  | some pair => exact skipNext_of_dropped sent silent

theorem PoolState.Runs.tail (runs : state.Runs publicKey (event :: events)) :
    (state.step publicKey event).Runs publicKey events := by
  intro past before
  exact runs (event :: past) (List.cons_prefix_cons.mpr ⟨rfl, before⟩)

theorem emissions_cons_ne_nil
    (later : state.emission publicKey event = none →
      PoolState.emissions publicKey (state.step publicKey event) events ≠ []) :
    PoolState.emissions publicKey state (event :: events) ≠ [] := by
  rw [PoolState.emissions]
  cases emitted : state.emission publicKey event with
  | none => simpa using later emitted
  | some emission => simp

/-- A service without a pair to skip emits by the next tick. -/
theorem emissions_ne_nil_of_ready (ready : state.service.skipNext = false) (between : List PoolEvent)
    (milliseconds : ℕ) (runs : state.Runs publicKey (between ++ [.tick milliseconds])) :
    PoolState.emissions publicKey state (between ++ [.tick milliseconds]) ≠ [] := by
  induction between generalizing state with
  | nil =>
      obtain ⟨stream, live⟩ := Option.isSome_iff_exists.mp (runs [] (List.nil_prefix))
      have live : state.stream = some stream := live
      have sent : state.pairSent (.tick milliseconds) = some
          ⟨state.rpc.newBlock, milliseconds, { stream with interval := stream.interval + 1 }⟩ := by
        rw [PoolState.pairSent, live]
        rfl
      have emitted := (@isSome_emission_iff publicKey _ _ _ sent).mpr (.inr ready)
      apply emissions_cons_ne_nil
      intro silent
      rw [silent] at emitted
      cases emitted
  | cons event between ih =>
      apply emissions_cons_ne_nil
      intro silent
      exact ih (skipNext_of_no_emission ready silent) runs.tail

/-- From each tick to the next the stream emits, because a dropped tick leaves nothing to skip. -/
theorem emissions_ne_nil_of_ticks (first second : ℕ) (between : List PoolEvent)
    (runs : state.Runs publicKey (.tick first :: (between ++ [.tick second]))) :
    PoolState.emissions publicKey state (.tick first :: (between ++ [.tick second])) ≠ [] := by
  obtain ⟨stream, live⟩ := Option.isSome_iff_exists.mp (runs [] (List.nil_prefix))
  have live : state.stream = some stream := live
  have sent : state.pairSent (.tick first) = some
      ⟨state.rpc.newBlock, first, { stream with interval := stream.interval + 1 }⟩ := by
    rw [PoolState.pairSent, live]
    rfl
  apply emissions_cons_ne_nil
  intro silent
  exact emissions_ne_nil_of_ready (skipNext_of_dropped sent silent) between second runs.tail

end Emissions

/-- In every reachable state a new subscriber is handed a template at once and then in every two ticks
if and only if the stream hands on. -/
theorem subscription_delivers_iff (publicKey : Bytes) (events : List PoolEvent) (milliseconds : ℕ) :
    (PoolState.run publicKey {} events).Delivers publicKey milliseconds ↔
      (PoolState.run publicKey {} events).HandsOn := by
  have paced := paced_initial.run publicKey events
  constructor
  · intro delivers
    exact (isSome_welcome_iff paced milliseconds).mp delivers.atOnce
  · intro handsOn
    refine ⟨(isSome_welcome_iff paced milliseconds).mpr handsOn, ?_⟩
    intro before first between second runs
    apply emissions_ne_nil_of_ticks
    intro past ahead
    rw [PoolState.run, PoolState.run, ← List.foldl_append]
    exact runs (before ++ past) ((List.prefix_append_right_inj before).mpr ahead)

/-- A new block has its next pair skipped, all subscribers leave first, and the skip meets the next
subscriber. -/
theorem subscription_waits_after_restart :
    ¬ (PoolState.run (List.replicate 32 7) {} [.subscribe 0, .tick 60000,
      .poll ⟨List.replicate 32 1, rfl⟩ 61000, .unsubscribe]).Delivers (List.replicate 32 7) 62000 := by
  intro delivers
  have welcomed := delivers.atOnce
  revert welcomed
  decide +kernel

end ComptoMiningPool
