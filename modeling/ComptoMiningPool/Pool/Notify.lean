import ComptoMiningPool.Miner.Agreement
import ComptoMiningPool.Pool.Delivery

/-
This file models the `mining.notify` lines of the pool. It proves when every line has the documented
form and carries a block hash of the chain.
-/

namespace ComptoMiningPool

open JavaScript StratumClient

/-- Every subscriber writes the line of the job that it adds. -/
def JobsService.jobLines (service : JobsService) (template : JobTemplate) :
    ℕ → List (Except Thrown Line)
  | 0 => []
  | subscribers + 1 => (service.addJob template).2.response template ::
      JobsService.jobLines (service.addJob template).1 template subscribers

/-- The lines that one event makes the pool write. A late subscriber writes the newest template. -/
def PoolState.notifyLines (publicKey : Bytes) (state : PoolState) (event : PoolEvent) :
    List (Except Thrown Line) :=
  match event, state.stream with
  | .subscribe _, some stream => match stream.replay with
      | none => []
      | some template => state.service.jobLines template 1
  | event, _ => match state.emission publicKey event with
      | none => []
      | some emitted => emitted.service.jobLines emitted.template emitted.subscribers

/-- The hashes that the polls of a run have obtained from the chain. -/
def polledHashes (events : List PoolEvent) : List BlockHash :=
  events.filterMap fun
    | .poll hash _ => some hash
    | _ => none

/-- The clock shows a time whose seconds print with eight digits. -/
def InTime (milliseconds : ℕ) : Prop := 2 ^ 28 ≤ milliseconds / 1000 ∧ milliseconds / 1000 < 2 ^ 32

instance (milliseconds : ℕ) : Decidable (InTime milliseconds) := inferInstanceAs (Decidable (_ ∧ _))

def PoolEvent.InTime : PoolEvent → Prop
  | .poll _ milliseconds => ComptoMiningPool.InTime milliseconds
  | .tick milliseconds => ComptoMiningPool.InTime milliseconds
  | .subscribe milliseconds => ComptoMiningPool.InTime milliseconds
  | .unsubscribe => True
  | .submit _ => True

/-- The fields of a notify line have their documented lengths, and a miner decodes the previous hash to
one of these hashes. -/
structure MiningNotify.WellFormed (hashes : List BlockHash) (params : MiningNotify) : Prop where
  prevHash : HexDigits 64 params.prevHash
  decodes : ∃ hash ∈ hashes, swapWords (Bytes.ofHex params.prevHash.toLower).reverse = .ok hash.1
  version : HexDigits 8 params.version
  bits : HexDigits 8 params.bits
  timestamp : HexDigits 8 params.timestamp
  merkleBranch : ∀ entry ∈ params.merkleBranch, HexDigits 64 entry

/-- Every client subscribes after the first poll has answered. -/
def ConnectsAfterPoll (events : List PoolEvent) : Prop :=
  ∀ past milliseconds, past ++ [.subscribe milliseconds] <+: events → polledHashes past ≠ []

/-- The template was built from the pool's key, a polled hash, and a time of the clock. -/
def JobTemplate.Sourced (publicKey : Bytes) (hashes : List BlockHash) (template : JobTemplate) : Prop :=
  ∃ hash ∈ hashes, ∃ milliseconds, InTime milliseconds ∧
    template.block = getBlockTemplate publicKey hash.1 milliseconds

theorem JobTemplate.Sourced.mono {publicKey : Bytes} {hashes more : List BlockHash}
    {template : JobTemplate} (sourced : template.Sourced publicKey hashes) (subset : hashes ⊆ more) :
    template.Sourced publicKey more := by
  obtain ⟨hash, member, rest⟩ := sourced
  exact ⟨hash, subset member, rest⟩

/-- A sourced template gives well-formed lines. -/
theorem JobTemplate.Sourced.wellFormed {publicKey : Bytes} (size : publicKey.length = 32)
    {hashes : List BlockHash} {template : JobTemplate} (sourced : template.Sourced publicKey hashes)
    {job : MiningJob} {params : MiningNotify} (written : job.response template = .ok (.notify params)) :
    params.WellFormed hashes := by
  obtain ⟨hash, member, milliseconds, ⟨least, most⟩, built⟩ := sourced
  have current : template.block.currentblockhash = hash.1.toHex := by rw [built]; rfl
  obtain ⟨swapped, defined, response⟩ := MiningJob.response_of_hash job template current
    (by rw [hash.2]; decide)
  have line := Except.ok.inj (response.symm.trans written)
  obtain rfl := Line.notify.inj line
  have length : swapped.length = 32 := by
    rw [length_of_swap32 defined, List.length_reverse, hash.2]
  constructor
  · have digits := Bytes.hexDigits_toHex swapped
    rwa [length] at digits
  · exact ⟨hash, member, swapWords_notified defined⟩
  · rw [built]
    show HexDigits 8 (hexText 0x20000000)
    decide
  · rw [built]
    show HexDigits 8 "180eadd8"
    decide
  · rw [built]
    exact hexDigits_hexText least most
  · rw [built]
    intro entry member
    obtain rfl := List.mem_singleton.mp member
    have digits := Bytes.hexDigits_toHex publicKey
    rwa [size] at digits

/-- A written line belongs to a job for the one template. -/
theorem exists_job_of_mem_jobLines {service : JobsService} {template : JobTemplate} {subscribers : ℕ}
    {line : Except Thrown Line} (written : line ∈ service.jobLines template subscribers) :
    ∃ job : MiningJob, line = job.response template := by
  induction subscribers generalizing service with
  | zero => cases written
  | succ subscribers ih =>
      rcases List.mem_cons.mp written with rfl | written
      · exact ⟨_, rfl⟩
      · exact ih written

/-- A line is written for the newest template of the stream or for the emitted one. -/
theorem exists_template_of_mem_notifyLines {publicKey : Bytes} {state : PoolState} {event : PoolEvent}
    {line : Except Thrown Line} (written : line ∈ state.notifyLines publicKey event) :
    ∃ (template : JobTemplate) (job : MiningJob), line = job.response template ∧
      ((∃ stream, state.stream = some stream ∧ stream.replay = some template) ∨
        ∃ emitted, state.emission publicKey event = some emitted ∧ emitted.template = template) := by
  unfold PoolState.notifyLines at written
  split at written
  · rename_i stream live
    split at written
    · cases written
    · rename_i template newest
      obtain ⟨job, rfl⟩ := exists_job_of_mem_jobLines written
      exact ⟨template, job, rfl, .inl ⟨stream, live, newest⟩⟩
  · split at written
    · cases written
    · rename_i emitted found
      obtain ⟨job, rfl⟩ := exists_job_of_mem_jobLines written
      exact ⟨emitted.template, job, rfl, .inr ⟨emitted, found, rfl⟩⟩

/-- The pool holds a polled hash, a stream runs only with one, and its newest template has one. -/
structure Polled (publicKey : Bytes) (hashes : List BlockHash) (state : PoolState) : Prop where
  answered : state.rpc.blockHash.isSome ↔ hashes ≠ []
  current : hashes ≠ [] → ∃ hash ∈ hashes, state.rpc.newBlock = hash.1
  idle : hashes = [] → state.stream = none
  newest : ∀ stream template, state.stream = some stream → stream.replay = some template →
    template.Sourced publicKey hashes

theorem polled_initial (publicKey : Bytes) : Polled publicKey [] {} := by
  constructor
  · simp
  · intro impossible
    exact absurd rfl impossible
  · exact fun _ => rfl
  · intro stream template impossible
    cases impossible

section Steps

variable {publicKey : Bytes} {hashes : List BlockHash} {state : PoolState} {event : PoolEvent}

/-- A running stream has a polled hash. -/
theorem Polled.ne_nil_of_live (polled : Polled publicKey hashes state) {stream : JobStream}
    (live : state.stream = some stream) : hashes ≠ [] := by
  intro empty
  rw [polled.idle empty] at live
  cases live

/-- A sent pair carries a polled hash. -/
theorem Polled.pairSent (polled : Polled publicKey hashes state) (time : event.InTime)
    (connects : ∀ milliseconds, event = .subscribe milliseconds → hashes ≠ []) {pair : PairSent}
    (sent : state.pairSent event = some pair) :
    (∃ hash ∈ hashes ++ polledHashes [event], pair.blockHash = hash.1) ∧ InTime pair.milliseconds := by
  have known : hashes ≠ [] →
      ∃ hash ∈ hashes ++ polledHashes [event], state.rpc.newBlock = hash.1 := by
    intro answered
    obtain ⟨hash, member, same⟩ := polled.current answered
    exact ⟨hash, List.mem_append_left _ member, same⟩
  cases event with
  | poll hash milliseconds =>
      simp only [PoolState.pairSent] at sent
      split at sent
      · cases sent
      · obtain ⟨stream, live, rfl⟩ := Option.map_eq_some_iff.mp sent
        exact ⟨⟨hash, List.mem_append_right _ (List.mem_singleton.mpr rfl), rfl⟩, time⟩
  | tick milliseconds =>
      obtain ⟨stream, live, rfl⟩ := Option.map_eq_some_iff.mp sent
      exact ⟨known (polled.ne_nil_of_live live), time⟩
  | subscribe milliseconds =>
      have answered := connects milliseconds rfl
      cases live : state.stream with
      | some stream => simp [PoolState.pairSent, live] at sent
      | none =>
          simp only [PoolState.pairSent, live] at sent
          obtain rfl := Option.some.inj sent
          exact ⟨known answered, time⟩
  | unsubscribe => cases sent
  | submit jobId => cases sent

/-- An emitted template carries a polled hash. -/
theorem Polled.emission (polled : Polled publicKey hashes state) (time : event.InTime)
    (connects : ∀ milliseconds, event = .subscribe milliseconds → hashes ≠ [])
    {emitted : PairEmitted} (found : state.emission publicKey event = some emitted) :
    emitted.template.Sourced publicKey (hashes ++ polledHashes [event]) := by
  unfold PoolState.emission at found
  split at found
  · cases found
  · rename_i pair sent
    obtain ⟨⟨hash, member, same⟩, inTime⟩ := polled.pairSent time connects sent
    have received := receive_received state.service
      (getBlockTemplate publicKey pair.blockHash pair.milliseconds) pair.stream.interval
    change Received _ _ _ (PoolState.receiveSent publicKey state.service pair) at received
    split at found
    · cases found
    · rename_i service template outcome
      obtain rfl := Option.some.inj found
      rw [outcome] at received
      cases received with
      | emitted due last current =>
          refine ⟨hash, member, pair.milliseconds, inTime, ?_⟩
          rw [current, same]

/-- The polls alone change the chain service. -/
theorem rpc_step (publicKey : Bytes) (state : PoolState) (event : PoolEvent) :
    (state.step publicKey event).rpc = match event with
      | .poll hash _ => if state.rpc.blockHash = some hash.1 then state.rpc
          else { state.rpc with newBlock := hash.1, blockHash := some hash.1 }
      | _ => state.rpc := by
  cases event with
  | poll hash milliseconds =>
      by_cases known : state.rpc.blockHash = some hash.1
      · simp only [PoolState.step, PoolState.poll, if_pos known]
      · simp only [if_neg known]
        exact PoolState.rpc_poll_of_new publicKey known milliseconds
  | tick milliseconds =>
      simp only [PoolState.step]
      split
      · rfl
      · exact rpc_receivePair
  | subscribe milliseconds =>
      simp only [PoolState.step, PoolState.subscribe]
      split
      · exact rpc_receivePair
      · split <;> rfl
  | unsubscribe =>
      simp only [PoolState.step, PoolState.unsubscribe]
      split
      · rfl
      · split <;> rfl
  | submit jobId => rfl

/-- A poll leaves the chain service with a polled hash. -/
theorem Polled.rpc (polled : Polled publicKey hashes state) (event : PoolEvent) :
    ((state.step publicKey event).rpc.blockHash.isSome ↔ hashes ++ polledHashes [event] ≠ []) ∧
      (hashes ++ polledHashes [event] ≠ [] → ∃ hash ∈ hashes ++ polledHashes [event],
        (state.step publicKey event).rpc.newBlock = hash.1) := by
  rw [rpc_step]
  have same : polledHashes [event] = [] →
      (state.rpc.blockHash.isSome ↔ hashes ++ polledHashes [event] ≠ []) ∧
        (hashes ++ polledHashes [event] ≠ [] →
          ∃ hash ∈ hashes ++ polledHashes [event], state.rpc.newBlock = hash.1) := by
    intro quiet
    rw [quiet, List.append_nil]
    exact ⟨polled.answered, polled.current⟩
  cases event with
  | tick milliseconds => exact same rfl
  | subscribe milliseconds => exact same rfl
  | unsubscribe => exact same rfl
  | submit jobId => exact same rfl
  | poll hash milliseconds =>
      have added : hashes ++ polledHashes [.poll hash milliseconds] ≠ [] :=
        List.append_ne_nil_of_right_ne_nil _ (List.cons_ne_nil _ _)
      by_cases known : state.rpc.blockHash = some hash.1
      · have answered : state.rpc.blockHash.isSome := by rw [known]; rfl
        obtain ⟨old, member, same⟩ := polled.current (polled.answered.mp answered)
        simp only [if_pos known]
        exact ⟨⟨fun _ => added, fun _ => answered⟩,
          fun _ => ⟨old, List.mem_append_left _ member, same⟩⟩
      · simp only [if_neg known]
        exact ⟨⟨fun _ => added, fun _ => rfl⟩,
          fun _ => ⟨hash, List.mem_append_right _ (List.mem_singleton.mpr rfl), rfl⟩⟩

/-- Without a polled hash no subscriber has started the stream. -/
theorem Polled.stopped (polled : Polled publicKey hashes state) (empty : hashes = [])
    (connects : ∀ milliseconds, event = .subscribe milliseconds → hashes ≠ []) :
    (state.step publicKey event).stream = none := by
  have idle := polled.idle empty
  cases event with
  | poll hash milliseconds =>
      simp only [PoolState.step, PoolState.poll, idle]
      split
      · exact idle
      · rfl
  | tick milliseconds =>
      simp only [PoolState.step, idle]
  | subscribe milliseconds => exact absurd empty (connects milliseconds rfl)
  | unsubscribe =>
      simp only [PoolState.step, PoolState.unsubscribe, idle]
  | submit jobId => exact idle

/-- The template that the stream replays after an event carries a polled hash. -/
theorem Polled.replay (polled : Polled publicKey hashes state) (time : event.InTime)
    (connects : ∀ milliseconds, event = .subscribe milliseconds → hashes ≠ [])
    {stream : JobStream} {template : JobTemplate}
    (live : (state.step publicKey event).stream = some stream) (newest : stream.replay = some template) :
    template.Sourced publicKey (hashes ++ polledHashes [event]) := by
  have kept : ∀ earlier : JobStream, state.stream = some earlier → earlier.replay = some template →
      template.Sourced publicKey (hashes ++ polledHashes [event]) := by
    intro earlier before replay
    exact (polled.newest earlier template before replay).mono (List.subset_append_left _ _)
  cases sent : state.pairSent event with
  | none =>
      obtain ⟨_, _, stays⟩ := @step_of_quiet publicKey _ _ sent
      obtain ⟨earlier, before, _, replay⟩ := stays stream live
      exact kept earlier before (replay ▸ newest)
  | some pair =>
      cases outcome : PoolState.receiveSent publicKey state.service pair with
      | mk service emitted =>
          cases emitted with
          | none =>
              rw [(step_of_dropped sent outcome).2] at live
              obtain rfl := Option.some.inj live
              rcases stream_of_pairSent sent with ⟨_, _, forgotten⟩ | ⟨earlier, before, replay, _⟩
              · rw [forgotten] at newest
                cases newest
              · exact kept earlier before (replay ▸ newest)
          | some other =>
              rw [(step_of_emitted sent outcome).2] at live
              obtain rfl := Option.some.inj live
              obtain rfl := Option.some.inj newest
              have found : state.emission publicKey event =
                  some ⟨service, other, pair.stream.subscribers⟩ := by
                simp only [PoolState.emission, sent, outcome]
              exact polled.emission time connects found

/-- Every event in time keeps the polled hash, unless a client subscribes before the first poll. -/
theorem Polled.step (polled : Polled publicKey hashes state) (time : event.InTime)
    (connects : ∀ milliseconds, event = .subscribe milliseconds → hashes ≠ []) :
    Polled publicKey (hashes ++ polledHashes [event]) (state.step publicKey event) := by
  constructor
  · exact (polled.rpc event).1
  · exact (polled.rpc event).2
  · intro empty
    exact polled.stopped (List.append_eq_nil_iff.mp empty).1 connects
  · intro stream template
    exact polled.replay time connects

/-- Every line of an event in time is well-formed, unless a client subscribes before the first poll. -/
theorem Polled.wellFormed (polled : Polled publicKey hashes state) (size : publicKey.length = 32)
    (time : event.InTime) (connects : ∀ milliseconds, event = .subscribe milliseconds → hashes ≠ [])
    {params : MiningNotify} (written : .ok (.notify params) ∈ state.notifyLines publicKey event) :
    params.WellFormed (hashes ++ polledHashes [event]) := by
  obtain ⟨template, job, line, ⟨stream, live, newest⟩ | ⟨emitted, found, rfl⟩⟩ :=
    exists_template_of_mem_notifyLines written
  · have sourced := polled.newest stream template live newest
    exact (sourced.mono (List.subset_append_left _ _)).wellFormed size line.symm
  · exact (polled.emission time connects found).wellFormed size line.symm

end Steps

theorem polledHashes_append (first second : List PoolEvent) :
    polledHashes (first ++ second) = polledHashes first ++ polledHashes second :=
  List.filterMap_append

theorem PoolState.run_append_singleton (publicKey : Bytes) (state : PoolState)
    (events : List PoolEvent) (event : PoolEvent) :
    state.run publicKey (events ++ [event]) = (state.run publicKey events).step publicKey event := by
  rw [run, List.foldl_append]
  rfl

/-- A run in which every client subscribes after the first poll keeps the polled hash. -/
theorem polled_run (publicKey : Bytes) {events : List PoolEvent}
    (times : ∀ event ∈ events, event.InTime) (connects : ConnectsAfterPoll events) :
    Polled publicKey (polledHashes events) (PoolState.run publicKey {} events) := by
  induction events using List.reverseRecOn with
  | nil => exact polled_initial publicKey
  | append_singleton events event ih =>
      have polled := ih (fun earlier member => times earlier (List.mem_append_left _ member))
        (fun past milliseconds before => connects past milliseconds
          (before.trans (List.prefix_append _ _)))
      rw [polledHashes_append, PoolState.run_append_singleton]
      apply polled.step (times event (List.mem_append_right _ (List.mem_singleton.mpr rfl)))
      rintro milliseconds rfl
      exact connects events milliseconds (List.prefix_refl _)

/-- Without a poll and without a subscriber the pool stays as it started. -/
theorem run_of_quiet (publicKey : Bytes) {events : List PoolEvent} (unanswered : polledHashes events = [])
    (unsubscribed : ∀ milliseconds, .subscribe milliseconds ∉ events) :
    PoolState.run publicKey {} events = {} := by
  induction events with
  | nil => rfl
  | cons event events ih =>
      have rest : PoolState.run publicKey {} events = {} := by
        apply ih
        · cases event with
          | poll hash milliseconds => cases unanswered
          | _ => exact unanswered
        · intro milliseconds member
          exact unsubscribed milliseconds (List.mem_cons_of_mem _ member)
      cases event with
      | poll hash milliseconds => cases unanswered
      | subscribe milliseconds => exact absurd List.mem_cons_self (unsubscribed milliseconds)
      | _ => exact rest

/-- The first subscriber of a pool that has no hash is sent an empty previous hash. -/
theorem emptyHash_mem_notifyLines (publicKey : Bytes) (milliseconds : ℕ) :
    ∃ params : MiningNotify, params.prevHash = "" ∧
      .ok (.notify params) ∈ PoolState.notifyLines publicKey {} (.subscribe milliseconds) := by
  obtain ⟨service, template, outcome, current⟩ : ∃ service template,
      ({} : JobsService).receive (getBlockTemplate publicKey [] milliseconds) (-1) =
        (service, some template) ∧ template.block = getBlockTemplate publicKey [] milliseconds :=
    ⟨_, _, receive_of_other _ (by decide) rfl, rfl⟩
  have emitted : PoolState.emission publicKey {} (.subscribe milliseconds) =
      some ⟨service, template, 1⟩ := by
    unfold PoolState.emission
    simp only [PoolState.pairSent, PoolState.receiveSent, outcome]
  have lines : PoolState.notifyLines publicKey {} (.subscribe milliseconds) =
      [(service.addJob template).2.response template] := by
    simp only [PoolState.notifyLines, emitted]
    rfl
  have empty : template.block.currentblockhash = Bytes.toHex [] := by
    rw [current]
    rfl
  obtain ⟨swapped, defined, response⟩ :=
    MiningJob.response_of_hash (service.addJob template).2 template empty (by decide)
  obtain rfl : [] = swapped := Option.some.inj defined
  rw [lines, response]
  exact ⟨_, rfl, List.mem_singleton.mpr rfl⟩

/-- A run that starts with no hash has a first subscriber. -/
theorem exists_first_subscribe {past : List PoolEvent} (unanswered : polledHashes past = [])
    (milliseconds : ℕ) :
    ∃ quiet first, polledHashes quiet = [] ∧ (∀ milliseconds, .subscribe milliseconds ∉ quiet) ∧
      quiet ++ [.subscribe first] <+: past ++ [.subscribe milliseconds] := by
  induction past with
  | nil => exact ⟨[], milliseconds, rfl, fun _ => List.not_mem_nil, List.prefix_refl _⟩
  | cons event past ih =>
      have others : polledHashes past = [] := by
        cases event with
        | poll hash milliseconds => cases unanswered
        | _ => exact unanswered
      by_cases subscribes : ∃ first, event = .subscribe first
      · obtain ⟨first, rfl⟩ := subscribes
        exact ⟨[], first, rfl, fun _ => List.not_mem_nil, ⟨past ++ [.subscribe milliseconds], rfl⟩⟩
      · obtain ⟨quiet, first, silent, none, before⟩ := ih others
        refine ⟨event :: quiet, first, ?_, ?_, List.cons_prefix_cons.mpr ⟨rfl, before⟩⟩
        · cases event with
          | poll hash milliseconds => cases unanswered
          | _ => exact silent
        · intro other member
          rcases List.mem_cons.mp member with same | member
          · exact subscribes ⟨other, same.symm⟩
          · exact none other member

/-- Every notify line of a run has its documented form and a hash of the chain if and only if every
client subscribes after the first poll has answered. -/
theorem notify_wellFormed_iff {publicKey : Bytes} (size : publicKey.length = 32)
    {events : List PoolEvent} (times : ∀ event ∈ events, event.InTime) :
    (∀ past event, past ++ [event] <+: events → ∀ params,
      .ok (.notify params) ∈ (PoolState.run publicKey {} past).notifyLines publicKey event →
        params.WellFormed (polledHashes (past ++ [event]))) ↔ ConnectsAfterPoll events := by
  constructor
  · intro wellFormed past milliseconds before unanswered
    obtain ⟨quiet, first, silent, none, earlier⟩ := exists_first_subscribe unanswered milliseconds
    obtain ⟨params, empty, written⟩ := emptyHash_mem_notifyLines publicKey first
    rw [← run_of_quiet publicKey silent none] at written
    have digits := (wellFormed quiet _ (earlier.trans before) params written).prevHash
    rw [empty] at digits
    exact absurd digits (by decide)
  · intro connects past event before params written
    have prefix' : past <+: events := (List.prefix_append _ _).trans before
    have member : event ∈ events :=
      before.subset (List.mem_append_right _ (List.mem_singleton.mpr rfl))
    have polled := polled_run publicKey (fun earlier member => times earlier (prefix'.subset member))
      (fun past milliseconds ahead => connects past milliseconds (ahead.trans prefix'))
    rw [polledHashes_append]
    apply polled.wellFormed size (times event member) _ written
    rintro milliseconds rfl
    exact connects past milliseconds before

/-- A poll answers before the first client subscribes. -/
def polledSession : List PoolEvent :=
  [.poll ⟨List.replicate 32 1, rfl⟩ 1700000000000, .subscribe 1700000001000]

theorem polledSession_connects : ConnectsAfterPoll polledSession := by
  intro past milliseconds before
  rcases List.prefix_cons_iff.mp before with impossible | ⟨rest, same, _⟩
  · simp at impossible
  · cases past with
    | nil => simp at same
    | cons event past =>
        obtain rfl : event = _ := (List.cons.inj same).1
        exact List.cons_ne_nil _ _

theorem polledSession_inTime : ∀ event ∈ polledSession, event.InTime := by
  intro event member
  simp only [polledSession, List.mem_cons, List.not_mem_nil, or_false] at member
  rcases member with rfl | rfl
  · show InTime 1700000000000
    decide
  · show InTime 1700000001000
    decide

/-- Every line of the session is well-formed. -/
theorem notify_wellFormed_after_poll :
    ConnectsAfterPoll polledSession ∧ ∀ past event, past ++ [event] <+: polledSession → ∀ params,
      .ok (.notify params) ∈
        (PoolState.run (List.replicate 32 7) {} past).notifyLines (List.replicate 32 7) event →
          params.WellFormed (polledHashes (past ++ [event])) :=
  ⟨polledSession_connects,
    (notify_wellFormed_iff (by decide) polledSession_inTime).mpr polledSession_connects⟩

/-- A client subscribes before the first poll has answered, and its line has no previous hash. -/
theorem notify_sends_empty_hash :
    ¬ ∀ past event, past ++ [event] <+: [.subscribe 1700000000000] → ∀ params,
      .ok (.notify params) ∈
        (PoolState.run (List.replicate 32 7) {} past).notifyLines (List.replicate 32 7) event →
          params.WellFormed (polledHashes (past ++ [event])) := by
  intro wellFormed
  obtain ⟨params, empty, written⟩ := emptyHash_mem_notifyLines (List.replicate 32 7) 1700000000000
  have digits := (wellFormed [] _ (List.prefix_refl _) params written).prevHash
  rw [empty] at digits
  exact absurd digits (by decide)

end ComptoMiningPool
