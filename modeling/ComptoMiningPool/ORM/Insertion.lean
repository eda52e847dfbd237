import ComptoMiningPool.Async.Schedule
import ComptoMiningPool.ORM.InsertQueue

/-
This file proves what the callers of `insert` receive and which queued clients the batches lose.
-/

namespace ComptoMiningPool

open JavaScript Async

/-- A caller has received its own entry, merged with the generated map at its index of a batch that was
inserted before. -/
def ReceivesInserted (earlier : ServiceTrace) (caller : ℕ) (client : ObjectLiteral) : Prop :=
  ∃ (entry : QueueEntry) (flush index : ℕ) (entries : List QueueEntry) (generatedMaps : List ObjectLiteral)
    (generatedMap : ObjectLiteral), (caller, .called (.queued entry) ()) ∈ earlier ∧
      (flush, .answered (.insertRows entries) (.ok generatedMaps)) ∈ earlier ∧
      entries[index]? = some entry ∧ generatedMaps[index]? = some generatedMap ∧
      client = spread entry.partialClient.toObject generatedMap

/-- Each promise of `insert` resolves after its batch. -/
def ResolvesAfterBatch (trace : ServiceTrace) : Prop :=
  Accepted (fun earlier caller event => ∀ client, event = .called (.resolved client) () →
    ReceivesInserted earlier caller client) trace

/-- A promise resolves while no batch with its entry is answered. -/
theorem not_receivesInserted {earlier : ServiceTrace} {caller : ℕ} {client : ObjectLiteral}
    (accepted : Accepted queueMonitor ((caller, .called (.resolved client) ()) :: earlier)) :
    ¬ ReceivesInserted earlier caller client := by
  rintro ⟨entry, flush, index, entries, generatedMaps, generatedMap, queued, inserted, found, _, _⟩
  obtain ⟨⟨own, ownQueued, unanswered⟩, before⟩ := accepted_cons.mp accepted
  obtain rfl := queued_unique before queued ownQueued
  exact unanswered flush entries _ inserted (List.mem_of_getElem? found)

/-- Every promise of `insert` that resolves does so before its batch is inserted. -/
theorem insert_resolvesAfterBatch_iff {system : System ClientServiceState ServiceAnswer Thrown Unit ServiceTask}
    (reached : Reachable serviceSemantics {} system) :
    (∀ caller client earlier, (caller, .called (.resolved client) ()) :: earlier <:+ system.trace →
      ¬ ReceivesInserted earlier caller client) ∧
    (ResolvesAfterBatch system.trace ↔
      ∀ caller client, (caller, .called (.resolved client) ()) ∉ system.trace) := by
  have accepted := (queueContract_proved.reachable reached).2
  have early : ∀ caller client earlier, (caller, .called (.resolved client) ()) :: earlier <:+ system.trace →
      ¬ ReceivesInserted earlier caller client := by
    intro caller client earlier suffix
    apply not_receivesInserted
    intro index event older inner
    exact accepted index event older (inner.trans suffix)
  refine ⟨early, ?_, ?_⟩
  · intro resolves caller client member
    obtain ⟨later, earlier, whole⟩ := List.append_of_mem member
    have suffix : (caller, .called (.resolved client) ()) :: earlier <:+ system.trace := ⟨later, whole.symm⟩
    exact early caller client earlier suffix (resolves caller _ earlier suffix client rfl)
  · rintro none caller event earlier suffix client rfl
    exact absurd (suffix.subset List.mem_cons_self) (none caller client)

/-- A database that gives its answer to every batch and carries out every update. -/
def databaseAnswers (inserted : List QueueEntry → Except Thrown (List ObjectLiteral)) :
    (call : ServiceCall) → ServiceAnswer call
  | .insertRows entries => inserted entries
  | .killRows _ => .ok ()
  | .softDelete _ => .ok ()
  | .now => (0 : ℕ)
  | .turn => ()
  | .queued _ => ()
  | .resolved _ => ()
  | .rejected _ => ()

def firstWorker : PartialClient where
  sessionId := some "00000001"
  address := "first"
  clientName := "worker"
  userAgent := "miner"
  startTime := 0
  bestDifficulty := 0

/-- A system after a schedule of the service. -/
def serviceSystem (inserted : List QueueEntry → Except Thrown (List ObjectLiteral))
    (schedule : List (Move ServiceTask)) : System ClientServiceState ServiceAnswer Thrown Unit ServiceTask :=
  schedule.foldl (System.move serviceSemantics (databaseAnswers inserted)) ⟨{}, [], []⟩

/-- A call whose answer depends on neither the clock nor the database. -/
def ServiceCall.isFree : ServiceCall → Bool
  | .insertRows _ => false
  | .killRows _ => false
  | .softDelete _ => false
  | .now => false
  | _ => true

def ServiceCall.isResolved : ServiceCall → Bool
  | .resolved _ => true
  | _ => false

def ServiceCall.isRejected : ServiceCall → Bool
  | .rejected _ => true
  | _ => false

/-- An event after which its thread waits for a turn. -/
def ServiceEvent.waitsTurn : ServiceEvent → Bool
  | .issued .turn => true
  | _ => false

def ServiceEvent.fails : ServiceEvent → Bool
  | .answered (.insertRows _) (.error _) => true
  | _ => false

theorem serviceSystem_reachable {inserted : List QueueEntry → Except Thrown (List ObjectLiteral)}
    {schedule : List (Move ServiceTask)}
    (lawful : System.LawfulAll serviceSemantics (databaseAnswers inserted) ⟨{}, [], []⟩ schedule)
    (free : ∀ pair ∈ (serviceSystem inserted schedule).trace, pair.2.Calls fun call => call.isFree = true) :
    Reachable serviceSemantics {} (serviceSystem inserted schedule) := by
  refine Reachable.moves ?_ .refl lawful free
  intro me state trace call isFree
  cases call <;> trivial

/-- A worker submits, and a flush of its entry waits for the database. -/
def flushedSchedule : List (Move ServiceTask) := [.start (.submit 0 firstWorker), .start .insertClients]

theorem flushedSchedule_reachable :
    Reachable serviceSemantics {} (serviceSystem (fun _ => .ok []) flushedSchedule) :=
  serviceSystem_reachable ⟨trivial, trivial, trivial⟩ (by decide)

theorem insert_resolvesAfterBatch_flushed :
    ResolvesAfterBatch (serviceSystem (fun _ => .ok []) flushedSchedule).trace := by
  apply (insert_resolvesAfterBatch_iff flushedSchedule_reachable).2.mpr
  intro caller client member
  have none : ∀ pair ∈ (serviceSystem (fun _ => .ok []) flushedSchedule).trace,
      pair.2.Calls fun call => call.isResolved = false := by
    decide
  cases none _ member

/-- A worker takes its two turns before any flush. -/
def earlySchedule : List (Move ServiceTask) := [.start (.submit 0 firstWorker), .resume 0, .resume 0]

theorem earlySchedule_reachable :
    Reachable serviceSemantics {} (serviceSystem (fun _ => .ok []) earlySchedule) := by
  apply serviceSystem_reachable _ (by decide)
  refine ⟨trivial, ?_, ?_, trivial⟩
  · exact System.lawful_resume rfl trivial
  · exact System.lawful_resume rfl trivial

/-- The promise of `insert` resolves although no batch was sent. -/
theorem insert_resolves_unsent :
    ∃ system, Reachable serviceSemantics {} system ∧ ¬ ResolvesAfterBatch system.trace := by
  refine ⟨_, earlySchedule_reachable, ?_⟩
  intro resolves
  obtain ⟨entry, flush, index, entries, generatedMaps, generatedMap, _, inserted, _⟩ :=
    resolves 0 _ _ List.suffix_rfl _ rfl
  have none : insertedBatches (serviceSystem (fun _ => .ok []) earlySchedule).trace = [] := rfl
  have member : (flush, entries) ∈ insertedBatches (serviceSystem (fun _ => .ok []) earlySchedule).trace :=
    mem_insertedBatches.mpr ⟨generatedMaps, List.mem_cons_of_mem _ inserted⟩
  rw [none] at member
  cases member

/-- An entry is in the queue or in a batch that the database has not answered. -/
def Pending (state : ClientServiceState) (trace : ServiceTrace) (entry : QueueEntry) : Prop :=
  entry ∈ state.insertQueue ∨ ∃ flush entries, (flush, .issued (.insertRows entries)) ∈ trace ∧
    entry ∈ entries ∧ ∀ answer, (flush, .answered (.insertRows entries) answer) ∉ trace

/-- Each queued client is still pending, or is inserted once, or its caller is told of a failure. A batch
that fails loses one row at most. -/
structure InsertsOnce (state : ClientServiceState) (trace : ServiceTrace) : Prop where
  notTwice : ∀ entry ∈ queuedEntries trace, insertions trace entry ≤ 1
  notLost : ∀ caller entry, (caller, .called (.queued entry) ()) ∈ trace →
    (Pending state trace entry ∧ insertions trace entry = 0) ∨ insertions trace entry = 1 ∨
      ∃ thrown, (caller, .called (.rejected thrown) ()) ∈ trace
  othersKept : ∀ flush entries thrown, (flush, .answered (.insertRows entries) (.error thrown)) ∈ trace →
    ∃ culprit, ∀ entry ∈ entries, entry.result ≠ culprit →
      Pending state trace entry ∨ insertions trace entry = 1

section Insertions

variable {state : ClientServiceState} {trace : ServiceTrace} {entry : QueueEntry}

theorem insertions_le_one (kept : QueueInvariant state trace) (accepted : Accepted queueMonitor trace)
    (entry : QueueEntry) : insertions trace entry ≤ 1 :=
  List.nodup_iff_count_le_one.mp (inserted_nodup kept accepted) entry.result

/-- An entry is inserted when a batch that holds it is. -/
theorem insertions_pos_iff (kept : QueueInvariant state trace) (queued : entry ∈ queuedEntries trace) :
    0 < insertions trace entry ↔ ∃ batch ∈ insertedBatches trace, entry ∈ batch.2 := by
  rw [insertions, List.count_pos_iff]
  constructor
  · intro member
    obtain ⟨other, inside, same⟩ := List.mem_map.mp member
    obtain ⟨batch, inserted, holds⟩ := List.mem_flatMap.mp inside
    have otherQueued : other ∈ queuedEntries trace := by
      apply kept.accounted.mem_iff.mpr
      exact List.mem_append_right _
        (List.mem_flatMap.mpr ⟨batch, insertedBatches_subset kept inserted, holds⟩)
    obtain rfl := kept.entry_eq otherQueued queued same
    exact ⟨batch, inserted, holds⟩
  · rintro ⟨batch, inserted, holds⟩
    exact List.mem_map.mpr ⟨entry, List.mem_flatMap.mpr ⟨batch, inserted, holds⟩, rfl⟩

/-- An entry of a batch that was not inserted is not inserted at all. -/
theorem insertions_of_issued (kept : QueueInvariant state trace) {batch : ℕ × List QueueEntry}
    (issued : batch ∈ issuedBatches trace) (holds : entry ∈ batch.2) (absent : batch ∉ insertedBatches trace) :
    insertions trace entry = 0 := by
  have queued : entry ∈ queuedEntries trace :=
    kept.accounted.mem_iff.mpr (List.mem_append_right _ (List.mem_flatMap.mpr ⟨batch, issued, holds⟩))
  by_contra positive
  obtain ⟨other, inserted, holds'⟩ := (insertions_pos_iff kept queued).mp (by omega)
  obtain rfl := kept.batch_eq issued (insertedBatches_subset kept inserted) holds holds'
  exact absent inserted

theorem insertions_of_queue (kept : QueueInvariant state trace) (waiting : entry ∈ state.insertQueue) :
    insertions trace entry = 0 := by
  have queued : entry ∈ queuedEntries trace :=
    kept.accounted.mem_iff.mpr (List.mem_append_left _ waiting)
  by_contra positive
  obtain ⟨batch, inserted, holds⟩ := (insertions_pos_iff kept queued).mp (by omega)
  have issued := List.mem_flatMap.mpr ⟨batch, insertedBatches_subset kept inserted, holds⟩
  exact List.disjoint_of_nodup_append kept.apart waiting issued

/-- An entry of a failed batch is neither pending nor inserted. -/
theorem lost_of_failed (kept : QueueInvariant state trace) (accepted : Accepted queueMonitor trace) {flush : ℕ}
    {entries : List QueueEntry} {thrown : Thrown}
    (failed : (flush, .answered (.insertRows entries) (.error thrown)) ∈ trace) (holds : entry ∈ entries) :
    ¬ Pending state trace entry ∧ insertions trace entry = 0 := by
  have issued : (flush, entries) ∈ issuedBatches trace :=
    mem_issuedBatches.mpr (kept.asked flush entries _ failed)
  constructor
  · rintro (waiting | ⟨other, entries', issued', holds', unanswered⟩)
    · exact List.disjoint_of_nodup_append kept.apart waiting (List.mem_flatMap.mpr ⟨_, issued, holds⟩)
    · cases kept.batch_eq issued (mem_issuedBatches.mpr issued') holds holds'
      exact unanswered _ failed
  · apply insertions_of_issued kept issued holds
    intro inserted
    obtain ⟨generatedMaps, answered⟩ := mem_insertedBatches.mp inserted
    cases answered_unique accepted failed answered

/-- An entry is pending, inserted, or in a batch that failed. -/
theorem fate_of_queued (kept : QueueInvariant state trace) (accepted : Accepted queueMonitor trace)
    (queued : entry ∈ queuedEntries trace) :
    (Pending state trace entry ∧ insertions trace entry = 0) ∨ insertions trace entry = 1 ∨
      ∃ flush entries thrown, (flush, .answered (.insertRows entries) (.error thrown)) ∈ trace ∧
        entry ∈ entries := by
  rcases List.mem_append.mp (kept.accounted.mem_iff.mp queued) with waiting | sent
  · exact .inl ⟨.inl waiting, insertions_of_queue kept waiting⟩
  · obtain ⟨⟨flush, entries⟩, issued, holds⟩ := List.mem_flatMap.mp sent
    by_cases answered : ∃ answer, (flush, .answered (.insertRows entries) answer) ∈ trace
    · obtain ⟨answer, answered⟩ := answered
      cases answer with
      | error thrown => exact .inr (.inr ⟨flush, entries, thrown, answered, holds⟩)
      | ok generatedMaps =>
          have positive := (insertions_pos_iff kept queued).mpr
            ⟨_, mem_insertedBatches.mpr ⟨generatedMaps, answered⟩, holds⟩
          have bounded := insertions_le_one kept accepted entry
          exact .inr (.inl (by omega))
    · have unanswered : ∀ answer, (flush, .answered (.insertRows entries) answer) ∉ trace :=
        fun answer member => answered ⟨answer, member⟩
      refine .inl ⟨.inr ⟨flush, entries, mem_issuedBatches.mp issued, holds, unanswered⟩, ?_⟩
      apply insertions_of_issued kept issued holds
      intro inserted
      obtain ⟨generatedMaps, member⟩ := mem_insertedBatches.mp inserted
      exact unanswered _ member

end Insertions

/-- No client is lost as long as no batch with a client fails. -/
theorem insert_insertsOnce_iff {system : System ClientServiceState ServiceAnswer Thrown Unit ServiceTask}
    (reached : Reachable serviceSemantics {} system) :
    InsertsOnce system.state system.trace ↔ ∀ flush entries thrown,
      (flush, .answered (.insertRows entries) (.error thrown)) ∈ system.trace → entries = [] := by
  obtain ⟨kept, accepted⟩ := queueContract_proved.reachable reached
  constructor
  · intro once flush entries thrown failed
    apply List.eq_nil_iff_forall_not_mem.mpr
    intro entry holds
    have queued := kept.queued_of_answered failed holds
    obtain ⟨caller, called⟩ := mem_queuedEntries.mp queued
    obtain ⟨notPending, none⟩ := lost_of_failed kept accepted failed holds
    rcases once.notLost caller entry called with ⟨pending, _⟩ | inserted | ⟨thrown', told⟩
    · exact notPending pending
    · omega
    · obtain ⟨_, _, never⟩ := accepted.of_mem told
      exact never
  · intro harmless
    constructor
    · exact fun entry _ => insertions_le_one kept accepted entry
    · intro caller entry called
      rcases fate_of_queued kept accepted (mem_queuedEntries.mpr ⟨caller, called⟩) with
        pending | inserted | ⟨flush, entries, thrown, failed, holds⟩
      · exact .inl pending
      · exact .inr (.inl inserted)
      · rw [harmless flush entries thrown failed] at holds
        cases holds
    · intro flush entries thrown failed
      refine ⟨0, ?_⟩
      intro entry holds
      rw [harmless flush entries thrown failed] at holds
      cases holds

/-- A flush is sent after the turns of the worker. -/
def sentSchedule : List (Move ServiceTask) :=
  [.start (.submit 0 firstWorker), .resume 0, .resume 0, .start .insertClients]

def answeredSchedule : List (Move ServiceTask) := sentSchedule ++ [.resume 1]

theorem turnsDone_of_forall {trace : ServiceTrace}
    (done : ∀ pair ∈ trace, (own pair.1 trace).head?.all (fun event => !ServiceEvent.waitsTurn event) = true) :
    TurnsDone trace := by
  intro me waiting
  have member : (me, .issued .turn) ∈ trace := mem_own.mp (List.mem_of_head? waiting)
  have turned := done _ member
  rw [waiting] at turned
  cases turned

def emptyMaps (entries : List QueueEntry) : Except Thrown (List ObjectLiteral) :=
  .ok (entries.map fun _ => Dictionary.empty)

theorem length_emptyMaps (entries : List QueueEntry) (generatedMaps : List ObjectLiteral)
    (inserted : emptyMaps entries = .ok generatedMaps) : generatedMaps.length = entries.length := by
  cases inserted
  exact List.length_map _

theorem answeredSchedule_lawful {inserted : List QueueEntry → Except Thrown (List ObjectLiteral)}
    (paired : ∀ entries generatedMaps, inserted entries = .ok generatedMaps →
      generatedMaps.length = entries.length) :
    System.LawfulAll serviceSemantics (databaseAnswers inserted) ⟨{}, [], []⟩ answeredSchedule := by
  have done : TurnsDone (serviceSystem emptyMaps sentSchedule).trace := turnsDone_of_forall (by decide)
  refine ⟨trivial, ?_, ?_, trivial, ?_, trivial⟩
  · exact System.lawful_resume rfl trivial
  · exact System.lawful_resume rfl trivial
  · exact System.lawful_resume rfl ⟨done, paired _⟩

theorem insertedSystem_reachable : Reachable serviceSemantics {} (serviceSystem emptyMaps answeredSchedule) :=
  serviceSystem_reachable (answeredSchedule_lawful length_emptyMaps) (by decide)

/-- A flush that succeeds inserts the client of the worker once. -/
theorem insert_insertsOnce_inserted :
    insertions (serviceSystem emptyMaps answeredSchedule).trace ⟨0, firstWorker⟩ = 1 ∧
      InsertsOnce (serviceSystem emptyMaps answeredSchedule).state
        (serviceSystem emptyMaps answeredSchedule).trace := by
  refine ⟨rfl, (insert_insertsOnce_iff insertedSystem_reachable).mpr ?_⟩
  intro flush entries thrown failed
  have none : ∀ pair ∈ (serviceSystem emptyMaps answeredSchedule).trace,
      ServiceEvent.fails pair.2 = false := by
    decide
  cases none _ failed

def constraintFailed : Thrown := .error "SQLITE_CONSTRAINT: UNIQUE constraint failed"

def refused (_ : List QueueEntry) : Except Thrown (List ObjectLiteral) := .error constraintFailed

theorem failedSystem_reachable : Reachable serviceSemantics {} (serviceSystem refused answeredSchedule) :=
  serviceSystem_reachable (answeredSchedule_lawful fun _ _ impossible => nomatch impossible) (by decide)

/-- A flush that fails loses the client of a caller that was told of a success. -/
theorem insert_loses_client :
    ∃ system, Reachable serviceSemantics {} system ∧ ¬ InsertsOnce system.state system.trace := by
  refine ⟨_, failedSystem_reachable, ?_⟩
  intro once
  let entry : QueueEntry := ⟨0, firstWorker⟩
  rcases once.notLost 0 entry (@List.mem_of_getElem? _ _ 8 _ rfl) with
    ⟨waiting | ⟨flush, entries, issued, _, unanswered⟩, _⟩ | inserted | ⟨thrown, told⟩
  · cases waiting
  · have batches : issuedBatches (serviceSystem refused answeredSchedule).trace = [(1, [entry])] := rfl
    have sent := mem_issuedBatches.mpr issued
    rw [batches, List.mem_singleton] at sent
    cases sent
    exact unanswered (.error constraintFailed) List.mem_cons_self
  · cases inserted
  · have none : ∀ pair ∈ (serviceSystem refused answeredSchedule).trace,
        pair.2.Calls fun call => call.isRejected = false := by
      decide
    cases none _ told

end ComptoMiningPool
