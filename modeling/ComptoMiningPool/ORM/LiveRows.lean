import ComptoMiningPool.ORM.TableRows

/-
This file compares the rows that are alive with the sessions that are connected. It proves what keeps the
two equal.
-/

namespace ComptoMiningPool

open JavaScript Async

/-- The queue is empty and the database has answered every call. -/
structure Settled (state : ClientServiceState) (trace : ServiceTrace) : Prop where
  queue : state.insertQueue = []
  answered : ∀ (me : ℕ) (request : ServiceCall), request.OfDatabase → (me, .issued request) ∈ trace →
    ∃ answer, (me, .answered request answer) ∈ trace

/-- The rows that are alive are the rows of the connected sessions that have submitted. -/
structure LiveRowsExact (state : ClientServiceState) (trace : ServiceTrace) : Prop where
  distinct : (state.rows.map fun row => row.entry.result).Nodup
  connected : ∀ row ∈ state.rows, row.deletedAt = none →
    ∃ session, Submits session row.entry trace ∧ ¬ Destroyed session trace
  alive : ∀ session entry, Submits session entry trace → ¬ Destroyed session trace →
    ∃ row ∈ state.rows, row.entry = entry ∧ row.deletedAt = none

theorem careful_within_session (sessionIds : ℕ → String) :
    (carefulSemantics sessionIds).Within (sessionSemantics sessionIds) where
  program := rfl
  mayStart enabled := enabled.1
  admits admitted := admitted.1
  disturbs disturbed := disturbed

theorem session_within_service (sessionIds : ℕ → String) :
    (sessionSemantics sessionIds).Within serviceSemantics where
  program := rfl
  mayStart _ := trivial
  admits admitted := admitted.1
  disturbs disturbed := disturbed

section Settled

variable {sessionIds : ℕ → String} {state : ClientServiceState} {trace : ServiceTrace}

/-- A row of a settled table that is alive has a connected session. -/
theorem RowInvariant.connected_of_alive (kept : RowInvariant sessionIds state trace)
    (accounted : QueueInvariant state trace) (settled : Settled state trace) {row : ClientRow}
    (member : row ∈ state.rows) (alive : row.deletedAt = none) :
    ∃ session, Submits session row.entry trace ∧ ¬ Destroyed session trace := by
  have inserted := kept.rows.mem_iff.mp (List.mem_map.mpr ⟨row, member, rfl⟩)
  obtain ⟨batch, isInserted, holds⟩ := List.mem_flatMap.mp inserted
  have queued : row.entry ∈ queuedEntries trace := by
    apply accounted.accounted.mem_iff.mpr
    exact List.mem_append_right _
      (List.mem_flatMap.mpr ⟨batch, insertedBatches_subset accounted isInserted, holds⟩)
  obtain ⟨session, submitted⟩ := kept.submitted row.entry queued
  refine ⟨session, submitted, ?_⟩
  rintro ⟨me, sessionId, started⟩
  obtain ⟨answer, answered⟩ := settled.answered me (.softDelete sessionId) trivial
    (kept.asked me session sessionId started).2
  exact kept.deleted me session sessionId answer started answered row member submitted alive

/-- A connected session of a settled service has a row, and the row is alive. -/
theorem RowInvariant.alive_of_connected (kept : RowInvariant sessionIds state trace)
    (accounted : QueueInvariant state trace) (accepted : Accepted queueMonitor trace)
    (settled : Settled state trace) {session : ℕ} {entry : QueueEntry}
    (submitted : Submits session entry trace) (connected : ¬ Destroyed session trace) :
    ∃ row ∈ state.rows, row.entry = entry ∧ row.deletedAt = none := by
  obtain ⟨caller, _, called⟩ := id submitted
  have queued := mem_queuedEntries.mpr ⟨caller, called⟩
  have notPending : ¬ Pending state trace entry := by
    rintro (waiting | ⟨flush, entries, issued, _, unanswered⟩)
    · rw [settled.queue] at waiting
      cases waiting
    · obtain ⟨answer, answered⟩ := settled.answered flush (.insertRows entries) trivial issued
      exact unanswered answer answered
  rcases fate_of_queued accounted accepted queued with
    ⟨pending, _⟩ | once | ⟨flush, entries, thrown, failed, _⟩
  · exact absurd pending notPending
  · obtain ⟨batch, isInserted, holds⟩ := (insertions_pos_iff accounted queued).mp (by omega)
    have inserted : entry ∈ entriesOf (insertedBatches trace) := List.mem_flatMap.mpr ⟨batch, isInserted, holds⟩
    obtain ⟨row, member, rfl⟩ := List.mem_map.mp (kept.rows.mem_iff.mpr inserted)
    refine ⟨row, member, rfl, ?_⟩
    by_contra dead
    exact connected (kept.orphaned row member dead session submitted)
  · exact absurd failed (kept.succeeded flush entries thrown)

end Settled

def ServiceEvent.started? : ServiceEvent → Option ServiceTask
  | .started task => some task
  | _ => none

def ServiceEvent.asked? : ServiceEvent → Option ServiceCall
  | .issued request => some request
  | _ => none

/-- The events of one kind, each with its thread. -/
def eventsOf {V : Type} (kind : ServiceEvent → Option V) (trace : ServiceTrace) : List (ℕ × V) :=
  trace.filterMap fun pair => (kind pair.2).map (Prod.mk pair.1)

theorem mem_eventsOf {V : Type} {kind : ServiceEvent → Option V} {me : ℕ} {event : ServiceEvent} {value : V}
    {trace : ServiceTrace} (member : (me, event) ∈ trace) (isKind : kind event = some value) :
    (me, value) ∈ eventsOf kind trace :=
  List.mem_filterMap.mpr ⟨_, member, by simp [isKind]⟩

def oneSession (_ : ℕ) : String := "00000001"

/-- A worker is destroyed after its row was inserted. -/
def destroyedSchedule : List (Move ServiceTask) :=
  answeredSchedule ++ [.start (.destroy 0 "00000001"), .resume 2]

theorem destroyedSchedule_lawful :
    System.LawfulAll (carefulSemantics oneSession) (databaseAnswers emptyMaps) ⟨{}, [], []⟩
      destroyedSchedule := by
  have done : TurnsDone (serviceSystem emptyMaps sentSchedule).trace := turnsDone_of_forall (by decide)
  have batches : issuedBatches (serviceSystem emptyMaps answeredSchedule).trace =
      [(1, [⟨0, firstWorker⟩])] := rfl
  have tasks : eventsOf ServiceEvent.started? (serviceSystem emptyMaps
      (answeredSchedule ++ [.start (.destroy 0 "00000001")])).trace =
        [(2, .destroy 0 "00000001"), (1, .insertClients), (0, .submit 0 firstWorker)] := rfl
  refine ⟨⟨⟨rfl, ?_⟩, ?_⟩, ?_, ?_, ⟨trivial, trivial⟩, ?_, ⟨rfl, ?_⟩, ?_, trivial⟩
  · intro me partialClient member
    cases member
  · rintro ⟨me, sessionId, member⟩
    cases member
  · exact System.lawful_resume rfl ⟨⟨trivial, trivial⟩, trivial⟩
  · exact System.lawful_resume rfl ⟨⟨trivial, trivial⟩, trivial⟩
  · exact System.lawful_resume rfl ⟨⟨⟨done, length_emptyMaps _⟩, _, rfl⟩, trivial⟩
  · rintro entry _ (waiting | ⟨flush, entries, issued, _, unanswered⟩)
    · cases waiting
    · have sent : (flush, entries) ∈ issuedBatches (serviceSystem emptyMaps answeredSchedule).trace :=
        mem_issuedBatches.mpr issued
      rw [batches, List.mem_singleton] at sent
      cases sent
      exact unanswered _ List.mem_cons_self
  · refine System.lawful_resume rfl ⟨⟨turnsDone_of_forall (by decide), rfl⟩, ?_⟩
    rintro row _ _ session ⟨me, started, _⟩
    have member : (me, .submit session row.entry.partialClient) ∈ eventsOf ServiceEvent.started?
        (serviceSystem emptyMaps (answeredSchedule ++ [.start (.destroy 0 "00000001")])).trace :=
      mem_eventsOf started rfl
    rw [tasks] at member
    have first : session = 0 := by
      simp only [List.mem_cons, Prod.mk.injEq, reduceCtorEq, and_false, false_or, List.not_mem_nil,
        or_false, ServiceTask.submit.injEq] at member
      exact member.2.1
    subst first
    exact ⟨2, "00000001", List.mem_cons_of_mem _ List.mem_cons_self⟩

theorem destroyedSystem_reachable :
    Reachable (carefulSemantics oneSession) {} (serviceSystem emptyMaps destroyedSchedule) := by
  have free : ∀ pair ∈ (serviceSystem emptyMaps destroyedSchedule).trace,
      pair.2.Calls fun call => call.isFree = true := by
    decide
  refine Reachable.moves ?_ .refl destroyedSchedule_lawful free
  intro me state trace call isFree
  cases call <;> first | exact ⟨⟨trivial, trivial⟩, trivial⟩ | cases isFree

theorem destroyedSystem_settled : Settled (serviceSystem emptyMaps destroyedSchedule).state
    (serviceSystem emptyMaps destroyedSchedule).trace := by
  refine ⟨rfl, ?_⟩
  intro me request ofDatabase issued
  have calls : eventsOf ServiceEvent.asked? (serviceSystem emptyMaps destroyedSchedule).trace =
      [(2, .softDelete "00000001"), (1, .insertRows [⟨0, firstWorker⟩]), (0, .turn), (0, .turn)] := rfl
  have member := mem_eventsOf issued (rfl : ServiceEvent.asked? (.issued request) = some request)
  rw [calls] at member
  simp only [List.mem_cons, Prod.mk.injEq, List.not_mem_nil, or_false, or_self] at member
  rcases member with ⟨rfl, rfl⟩ | ⟨rfl, rfl⟩ | ⟨rfl, rfl⟩
  · exact ⟨.ok (), List.mem_cons_self⟩
  · exact ⟨_, @List.mem_of_getElem? _ _ 3 _ rfl⟩
  · cases ofDatabase

/-- A worker is destroyed before the flush of its entry. -/
def ghostSchedule : List (Move ServiceTask) :=
  earlySchedule ++ [.start (.destroy 0 "00000001"), .resume 1, .start .insertClients, .resume 2]

theorem ghostSchedule_lawful :
    System.LawfulAll (sessionSemantics oneSession) (databaseAnswers emptyMaps) ⟨{}, [], []⟩ ghostSchedule := by
  have destroying : TurnsDone (serviceSystem emptyMaps
      (earlySchedule ++ [.start (.destroy 0 "00000001")])).trace := turnsDone_of_forall (by decide)
  have flushing : TurnsDone (serviceSystem emptyMaps (earlySchedule ++
      [.start (.destroy 0 "00000001"), .resume 1, .start .insertClients])).trace :=
    turnsDone_of_forall (by decide)
  refine ⟨⟨rfl, ?_⟩, ?_, ?_, rfl, ?_, trivial, ?_, trivial⟩
  · intro me partialClient member
    cases member
  · exact System.lawful_resume rfl ⟨trivial, trivial⟩
  · exact System.lawful_resume rfl ⟨trivial, trivial⟩
  · exact System.lawful_resume rfl ⟨destroying, rfl⟩
  · exact System.lawful_resume rfl ⟨⟨flushing, length_emptyMaps _⟩, _, rfl⟩

theorem ghostSystem_reachable :
    Reachable (sessionSemantics oneSession) {} (serviceSystem emptyMaps ghostSchedule) := by
  have free : ∀ pair ∈ (serviceSystem emptyMaps ghostSchedule).trace,
      pair.2.Calls fun call => call.isFree = true := by
    decide
  refine Reachable.moves ?_ .refl ghostSchedule_lawful free
  intro me state trace call isFree
  cases call <;> first | exact ⟨trivial, trivial⟩ | cases isFree

theorem ghostSystem_settled : Settled (serviceSystem emptyMaps ghostSchedule).state
    (serviceSystem emptyMaps ghostSchedule).trace := by
  refine ⟨rfl, ?_⟩
  intro me request ofDatabase issued
  have calls : eventsOf ServiceEvent.asked? (serviceSystem emptyMaps ghostSchedule).trace =
      [(2, .insertRows [⟨0, firstWorker⟩]), (1, .softDelete "00000001"), (0, .turn), (0, .turn)] := rfl
  have member := mem_eventsOf issued (rfl : ServiceEvent.asked? (.issued request) = some request)
  rw [calls] at member
  simp only [List.mem_cons, Prod.mk.injEq, List.not_mem_nil, or_false, or_self] at member
  rcases member with ⟨rfl, rfl⟩ | ⟨rfl, rfl⟩ | ⟨rfl, rfl⟩
  · exact ⟨_, List.mem_cons_self⟩
  · exact ⟨.ok (), @List.mem_of_getElem? _ _ 3 _ rfl⟩
  · cases ofDatabase

theorem answeredSchedule_session :
    Reachable (sessionSemantics oneSession) {} (serviceSystem emptyMaps answeredSchedule) := by
  have done : TurnsDone (serviceSystem emptyMaps sentSchedule).trace := turnsDone_of_forall (by decide)
  have free : ∀ pair ∈ (serviceSystem emptyMaps answeredSchedule).trace,
      pair.2.Calls fun call => call.isFree = true := by
    decide
  refine Reachable.moves ?_ .refl ?_ free
  · intro me state trace call isFree
    cases call <;> first | exact ⟨trivial, trivial⟩ | cases isFree
  · refine ⟨⟨rfl, ?_⟩, ?_, ?_, trivial, ?_, trivial⟩
    · intro me partialClient member
      cases member
    · exact System.lawful_resume rfl ⟨trivial, trivial⟩
    · exact System.lawful_resume rfl ⟨trivial, trivial⟩
    · exact System.lawful_resume rfl ⟨⟨done, length_emptyMaps _⟩, _, rfl⟩

/-- Ten minutes after its submission, the row of a connected worker is deleted. -/
theorem killDeadClients_deletes_connected : ∃ system, Reachable (sessionSemantics oneSession) {} system ∧
    Settled system.state system.trace ∧ ¬ LiveRowsExact system.state system.trace := by
  have later := answeredSchedule_session.tail (.disturb
    { (serviceSystem emptyMaps answeredSchedule).state with now := 600000 } ⟨600000, Nat.zero_le _, rfl⟩)
  have asked := later.tail (.start .killDeadClients trivial (.call (600000 : ℕ) ⟨rfl, trivial⟩ .await))
  have killed := asked.tail (.resume 2 rfl (.ok ()) ⟨turnsDone_of_forall (by decide), rfl⟩
    (.read (.store .done)))
  refine ⟨_, killed, ⟨rfl, ?_⟩, ?_⟩
  · intro me request ofDatabase issued
    have member := mem_eventsOf issued (rfl : ServiceEvent.asked? (.issued request) = some request)
    change (me, request) ∈ [(2, ServiceCall.killRows 300), (1, .insertRows [⟨0, firstWorker⟩]), (0, .turn),
      (0, .turn)] at member
    simp only [List.mem_cons, Prod.mk.injEq, List.not_mem_nil, or_false, or_self] at member
    rcases member with ⟨rfl, rfl⟩ | ⟨rfl, rfl⟩ | ⟨rfl, rfl⟩
    · exact ⟨.ok (), List.mem_cons_self⟩
    · exact ⟨_, @List.mem_of_getElem? _ _ 4 _ rfl⟩
    · cases ofDatabase
  · intro exact
    have found := exact.alive 0 ⟨0, firstWorker⟩
      ⟨0, @List.mem_of_getElem? _ _ 13 _ rfl, @List.mem_of_getElem? _ _ 12 _ rfl⟩ (by
        rintro ⟨me, sessionId, started⟩
        have member := mem_eventsOf started (rfl : ServiceEvent.started? _ = _)
        change (me, ServiceTask.destroy 0 sessionId) ∈
          [(2, ServiceTask.killDeadClients), (1, .insertClients), (0, .submit 0 firstWorker)] at member
        simp at member)
    obtain ⟨row, member, _, alive⟩ := found
    rw [List.mem_singleton.mp member] at alive
    cases alive

end ComptoMiningPool
