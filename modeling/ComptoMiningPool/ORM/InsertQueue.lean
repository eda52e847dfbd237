import ComptoMiningPool.ORM.ClientService

/-
This file follows the queue of the client service. It proves that entries move from the queue to the
batches, and that the database answers a batch after the turns of its callers.
-/

namespace ComptoMiningPool

open JavaScript Async

namespace ServiceEvent

def queued? : ServiceEvent → Option QueueEntry
  | .called (.queued entry) _ => some entry
  | _ => none

def issuedBatch? : ServiceEvent → Option (List QueueEntry)
  | .issued (.insertRows entries) => some entries
  | _ => none

def insertedBatch? : ServiceEvent → Option (List QueueEntry)
  | .answered (.insertRows entries) (.ok _) => some entries
  | _ => none

/-- The database answers one of its calls. -/
def Persists : ServiceEvent → Prop
  | .answered request _ => request.OfDatabase
  | _ => False

end ServiceEvent

/-- The entries that callers have queued, newest first. -/
def queuedEntries (trace : ServiceTrace) : List QueueEntry :=
  trace.filterMap fun pair => ServiceEvent.queued? pair.2

/-- The batches that were sent to the database, each with its thread. -/
def issuedBatches (trace : ServiceTrace) : List (ℕ × List QueueEntry) :=
  trace.filterMap fun pair => (ServiceEvent.issuedBatch? pair.2).map (Prod.mk pair.1)

/-- The batches that were inserted. -/
def insertedBatches (trace : ServiceTrace) : List (ℕ × List QueueEntry) :=
  trace.filterMap fun pair => (ServiceEvent.insertedBatch? pair.2).map (Prod.mk pair.1)

def entriesOf (batches : List (ℕ × List QueueEntry)) : List QueueEntry := batches.flatMap Prod.snd

/-- The number of times that an entry is part of an inserted batch. -/
def insertions (trace : ServiceTrace) (entry : QueueEntry) : ℕ :=
  ((entriesOf (insertedBatches trace)).map QueueEntry.result).count entry.result

/-- Entries move from the queue to the batches, and each has a subject of its own. The database answers
no batch that it was not asked for, and it answers after every turn. -/
structure QueueInvariant (state : ClientServiceState) (trace : ServiceTrace) : Prop where
  accounted : (queuedEntries trace).Perm (state.insertQueue ++ entriesOf (issuedBatches trace))
  distinct : ((queuedEntries trace).map QueueEntry.result).Nodup
  fresh : ∀ entry ∈ queuedEntries trace, entry.result < state.nextSubject
  asked : ∀ me entries answer, (me, .answered (.insertRows entries) answer) ∈ trace →
    (me, .issued (.insertRows entries)) ∈ trace
  patient : Accepted (fun earlier _ event => ServiceEvent.Persists event → TurnsDone earlier) trace

/-- A thread queues one entry and sends one batch. A caller receives its client while no batch with its
entry is answered, and no caller is told of a failure. -/
def queueMonitor (trace : ServiceTrace) (me : ℕ) : ServiceEvent → Prop
  | .called (.queued _) _ => ∀ entry, (me, .called (.queued entry) ()) ∉ trace
  | .issued (.insertRows _) => ∀ entries, (me, .issued (.insertRows entries)) ∉ trace
  | .answered (.insertRows entries) _ => (me, .issued (.insertRows entries)) ∈ trace ∧
      ∀ entries answer, (me, .answered (.insertRows entries) answer) ∉ trace
  | .called (.resolved _) _ => ∃ entry, (me, .called (.queued entry) ()) ∈ trace ∧
      ∀ flush entries answer, (flush, .answered (.insertRows entries) answer) ∈ trace → entry ∉ entries
  | .called (.rejected _) _ => False
  | _ => True

def queueContract : Contract ClientServiceState ServiceAnswer ServiceTask where
  admits := serviceAdmits
  monitor := queueMonitor
  rely _ _ := True
  invariant := QueueInvariant

section Steps

variable {state : ClientServiceState} {trace : ServiceTrace} {me : ℕ} {event : ServiceEvent}

/-- An event that neither queues, nor sends, nor persists. -/
structure QuietService (event : ServiceEvent) : Prop where
  queued : ServiceEvent.queued? event = none
  issued : ServiceEvent.issuedBatch? event = none
  persists : ¬ ServiceEvent.Persists event

theorem QueueInvariant.quiet (kept : QueueInvariant state trace) (quiet : QuietService event) :
    QueueInvariant state ((me, event) :: trace) := by
  have sameQueued : queuedEntries ((me, event) :: trace) = queuedEntries trace := by
    exact List.filterMap_cons_none quiet.queued
  have sameIssued : issuedBatches ((me, event) :: trace) = issuedBatches trace := by
    exact List.filterMap_cons_none (congrArg (Option.map (Prod.mk me)) quiet.issued)
  constructor
  · rw [sameQueued, sameIssued]
    exact kept.accounted
  · rw [sameQueued]
    exact kept.distinct
  · rw [sameQueued]
    exact kept.fresh
  · intro other entries answer member
    rcases List.mem_cons.mp member with equal | member
    · cases equal
      exact absurd trivial quiet.persists
    · exact List.mem_cons_of_mem _ (kept.asked other entries answer member)
  · exact accepted_cons.mpr ⟨fun persists => absurd persists quiet.persists, kept.patient⟩

/-- An answer of the database needs its request, if it answers a batch, and all turns done. -/
theorem QueueInvariant.persist (kept : QueueInvariant state trace) {request : ServiceCall}
    {answer : ServiceAnswer request} (done : TurnsDone trace)
    (asked : ∀ entries, request = .insertRows entries → (me, .issued (.insertRows entries)) ∈ trace) :
    QueueInvariant state ((me, .answered request answer) :: trace) := by
  constructor
  · exact kept.accounted
  · exact kept.distinct
  · exact kept.fresh
  · intro other entries answer' member
    rcases List.mem_cons.mp member with equal | member
    · cases equal
      exact List.mem_cons_of_mem _ (asked entries rfl)
    · exact List.mem_cons_of_mem _ (kept.asked other entries answer' member)
  · exact accepted_cons.mpr ⟨fun _ => done, kept.patient⟩

/-- Stores apart from the queue and the counter of subjects keep the invariant. -/
theorem QueueInvariant.same (kept : QueueInvariant state trace) {after : ClientServiceState}
    (queue : after.insertQueue = state.insertQueue) (subjects : after.nextSubject = state.nextSubject) :
    QueueInvariant after trace := by
  constructor
  · rw [queue]
    exact kept.accounted
  · exact kept.distinct
  · rw [subjects]
    exact kept.fresh
  · exact kept.asked
  · exact kept.patient

/-- A caller queues an entry with the next subject. -/
theorem QueueInvariant.queue (kept : QueueInvariant state trace) {after : ClientServiceState}
    {entry : QueueEntry} (subject : entry.result = state.nextSubject)
    (queue : after.insertQueue = state.insertQueue ++ [entry])
    (subjects : after.nextSubject = state.nextSubject + 1) :
    QueueInvariant after ((me, .called (.queued entry) ()) :: trace) := by
  have grown : queuedEntries ((me, .called (.queued entry) ()) :: trace) = entry :: queuedEntries trace := rfl
  constructor
  · rw [grown, queue, List.append_assoc]
    exact (kept.accounted.cons entry).trans List.perm_middle.symm
  · rw [grown, List.map_cons]
    apply List.nodup_cons.mpr
    refine ⟨?_, kept.distinct⟩
    intro again
    obtain ⟨older, member, same⟩ := List.mem_map.mp again
    have below := kept.fresh older member
    omega
  · rw [grown, subjects]
    intro other member
    rcases List.mem_cons.mp member with rfl | member
    · omega
    · exact Nat.lt_succ_of_lt (kept.fresh other member)
  · intro other entries answer member
    rcases List.mem_cons.mp member with equal | member
    · cases equal
    · exact List.mem_cons_of_mem _ (kept.asked other entries answer member)
  · exact accepted_cons.mpr ⟨fun persists => persists.elim, kept.patient⟩

/-- A flush moves the whole queue into its batch. -/
theorem QueueInvariant.issue (kept : QueueInvariant state trace) {after : ClientServiceState}
    (queue : after.insertQueue = []) (subjects : after.nextSubject = state.nextSubject) :
    QueueInvariant after ((me, .issued (.insertRows state.insertQueue)) :: trace) := by
  have sent : issuedBatches ((me, .issued (.insertRows state.insertQueue)) :: trace) =
      (me, state.insertQueue) :: issuedBatches trace := rfl
  constructor
  · rw [sent, queue]
    exact kept.accounted
  · exact kept.distinct
  · rw [subjects]
    exact kept.fresh
  · intro other entries answer member
    rcases List.mem_cons.mp member with equal | member
    · cases equal
    · exact List.mem_cons_of_mem _ (kept.asked other entries answer member)
  · exact accepted_cons.mpr ⟨fun persists => persists.elim, kept.patient⟩

/-- An answered batch has queued entries only. -/
theorem QueueInvariant.queued_of_answered (kept : QueueInvariant state trace) {flush : ℕ}
    {entries : List QueueEntry} {answer : ServiceAnswer (.insertRows entries)}
    (answered : (flush, .answered (.insertRows entries) answer) ∈ trace) {entry : QueueEntry}
    (member : entry ∈ entries) : entry ∈ queuedEntries trace := by
  apply kept.accounted.mem_iff.mpr
  apply List.mem_append_right
  have issued : (flush, entries) ∈ issuedBatches trace :=
    List.mem_filterMap.mpr ⟨_, kept.asked flush entries answer answered, rfl⟩
  exact List.mem_flatMap.mpr ⟨_, issued, member⟩

/-- While a thread waits for a turn, the database answers nothing. -/
theorem QueueInvariant.unanswered (kept : QueueInvariant state trace) {before : ServiceTrace}
    (turn : (own me before).head? = some (.issued .turn)) (extension : Extends me before trace) {flush : ℕ}
    {entries : List QueueEntry} {answer : ServiceAnswer (.insertRows entries)}
    (answered : (flush, .answered (.insertRows entries) answer) ∈ trace) :
    (flush, .answered (.insertRows entries) answer) ∈ before := by
  obtain ⟨added, rfl, others⟩ := extension
  rcases List.mem_append.mp answered with late | early
  · obtain ⟨later, earlier, rfl⟩ := List.append_of_mem late
    have done : TurnsDone (earlier ++ before) :=
      kept.patient flush (.answered (.insertRows entries) answer) _ ⟨later, by simp⟩ trivial
    have extended : Extends me before (earlier ++ before) :=
      ⟨earlier, rfl, fun pair member => others pair (by simp [member])⟩
    apply absurd turn
    rw [← extended.own_eq]
    exact done me
  · exact early

end Steps

/-- A caller has queued its entry, and no batch with the entry is answered. -/
structure Waits (me : ℕ) (entry : QueueEntry) (trace : ServiceTrace) : Prop where
  queued : (me, .called (.queued entry) ()) ∈ trace
  unanswered : ∀ flush entries answer, (flush, .answered (.insertRows entries) answer) ∈ trace →
    entry ∉ entries

section Programs

variable {V : Type} {state : ClientServiceState} {trace : ServiceTrace} {me : ℕ}
  {post : Post ClientServiceState ServiceAnswer Thrown V ServiceTask}

/-- A caller that takes a turn still waits for its batch. -/
theorem wp_turn {entry : QueueEntry} {next : Unit → ServiceProgram V} (kept : QueueInvariant state trace)
    (waits : Waits me entry trace)
    (continues : ∀ state' trace', QueueInvariant state' trace' → Waits me entry trace' →
      wp queueContract me (next ()) post state' trace') :
    wp queueContract me (.await .turn next) post state trace := by
  refine ⟨trivial, kept.quiet ⟨rfl, rfl, id⟩, ?_⟩
  intro state' trace' _ extension kept' answer _
  refine ⟨trivial, continues state' _ (kept'.quiet ⟨rfl, rfl, id⟩) ?_⟩
  constructor
  · exact List.mem_cons_of_mem _ (extension.mem (List.mem_cons_of_mem _ waits.queued))
  · intro flush entries batch member
    rcases List.mem_cons.mp member with equal | member
    · cases equal
    · have before := kept'.unanswered (by simp) extension member
      rcases List.mem_cons.mp before with equal | before
      · cases equal
      · exact waits.unanswered flush entries batch before

theorem wp_receiveClient (partialClient : PartialClient) (kept : QueueInvariant state trace)
    (first : ∀ entry, (me, .called (.queued entry) ()) ∉ trace) :
    wp queueContract me (receiveClient partialClient) (fun _ => QueueInvariant) state trace := by
  have unanswered : ∀ flush entries answer, (flush, .answered (.insertRows entries) answer) ∈ trace →
      (⟨state.nextSubject, partialClient⟩ : QueueEntry) ∉ entries := by
    intro flush entries answer member inside
    exact absurd (kept.fresh _ (kept.queued_of_answered member inside)) (lt_irrefl _)
  have waits : Waits me ⟨state.nextSubject, partialClient⟩
      ((me, .called (.queued ⟨state.nextSubject, partialClient⟩) ()) :: trace) := by
    refine ⟨List.mem_cons_self, ?_⟩
    intro flush entries answer member
    rcases List.mem_cons.mp member with equal | member
    · cases equal
    · exact unanswered flush entries answer member
  refine ⟨trivial, trivial, trivial, fun _ _ => ⟨first, ?_⟩⟩
  apply wp_turn (kept.queue rfl rfl rfl) waits
  intro state₁ trace₁ kept₁ waits₁
  apply wp_turn kept₁ waits₁
  intro state₂ trace₂ kept₂ waits₂ _ _
  exact ⟨⟨_, waits₂.queued, waits₂.unanswered⟩, kept₂.quiet ⟨rfl, rfl, id⟩⟩

/-- Handing over the maps touches subjects only. -/
theorem wp_handOver (generatedMaps : List ObjectLiteral) (entries : List QueueEntry) (index : ℕ)
    (kept : QueueInvariant state trace) :
    wp queueContract me (ClientService.handOver generatedMaps entries index) (fun _ => QueueInvariant) state
      trace := by
  induction entries generalizing index state with
  | nil => exact kept
  | cons entry rest ih => exact ⟨trivial, ih (index + 1) (kept.same rfl rfl)⟩

theorem wp_insertClients (kept : QueueInvariant state trace)
    (first : ∀ entries, (me, .issued (.insertRows entries)) ∉ trace)
    (none : ∀ entries answer, (me, .answered (.insertRows entries) answer) ∉ trace) :
    wp queueContract me ClientService.insertClients (fun _ => QueueInvariant) state trace := by
  refine ⟨trivial, first, kept.issue rfl rfl, ?_⟩
  intro state' trace' _ extension kept' answer admitted
  have issued : (me, .issued (.insertRows state.insertQueue)) ∈ trace' := extension.mem List.mem_cons_self
  refine ⟨⟨issued, ?_⟩, ?_⟩
  · intro entries answer' member
    rcases List.mem_cons.mp (extension.mem_of_mine member) with equal | member
    · cases equal
    · exact none entries answer' member
  · have after : QueueInvariant state' ((me, .answered (.insertRows state.insertQueue) answer) :: trace') := by
      apply kept'.persist admitted.1
      intro entries same
      cases same
      exact issued
    cases answer with
    | error thrown => exact after
    | ok generatedMaps => exact ⟨trivial, wp_handOver generatedMaps _ 0 (after.same rfl rfl)⟩

/-- An update of rows leaves the queue alone. -/
theorem wp_deleteWhere (answer : Except Thrown Unit) (condition : ClientRow → Bool)
    (kept : QueueInvariant state trace) :
    wp queueContract me ((Program.ofExcept answer).bind fun _ => ClientService.deleteWhere condition)
      (fun _ => QueueInvariant) state trace := by
  cases answer with
  | error thrown => exact kept
  | ok done => exact ⟨trivial, kept.same rfl rfl⟩

theorem wp_killDeadClients (kept : QueueInvariant state trace) :
    wp queueContract me ClientService.killDeadClients (fun _ => QueueInvariant) state trace := by
  intro now _
  refine ⟨trivial, trivial, (kept.quiet ⟨rfl, rfl, id⟩).quiet ⟨rfl, rfl, id⟩, ?_⟩
  intro state' trace' _ _ kept' answer done
  exact ⟨trivial, wp_deleteWhere answer _ (kept'.persist done fun _ equal => nomatch equal)⟩

theorem wp_delete (sessionId : String) (kept : QueueInvariant state trace) :
    wp queueContract me (ClientService.delete sessionId) (fun _ => QueueInvariant) state trace := by
  refine ⟨trivial, kept.quiet ⟨rfl, rfl, id⟩, ?_⟩
  intro state' trace' _ _ kept' answer done
  exact ⟨trivial, wp_deleteWhere answer _ (kept'.persist done fun _ equal => nomatch equal)⟩

end Programs

/-- Every interleaving of the service keeps its queue accounted for. -/
theorem queueContract_proved : queueContract.Proved serviceSemantics {} where
  sameAnswers := rfl
  relyRefl _ := trivial
  relyTrans _ _ _ _ _ := trivial
  initially := by
    constructor
    · exact List.Perm.refl _
    · exact List.nodup_nil
    · intro entry member
      cases member
    · intro me entries answer member
      cases member
    · exact accepted_nil _
  starts := by
    intro state trace me task kept _ fresh
    refine ⟨trivial, ?_⟩
    have started : QueueInvariant state ((me, .started task) :: trace) := kept.quiet ⟨rfl, rfl, id⟩
    have only : ∀ event, (me, event) ∈ (me, .started task) :: trace → event = .started task := by
      intro event member
      rcases List.mem_cons.mp member with equal | member
      · cases equal
        rfl
      · exact absurd member (fresh event)
    cases task with
    | submit session partialClient =>
        exact wp_receiveClient partialClient started fun entry member => nomatch only _ member
    | insertClients =>
        exact wp_insertClients started (fun entries member => nomatch only _ member)
          fun entries answer member => nomatch only _ member
    | killDeadClients => exact wp_killDeadClients started
    | destroy session sessionId => exact wp_delete sessionId started
  disturbed := by
    rintro state _ trace kept ⟨now, _, rfl⟩
    exact ⟨trivial, kept.same rfl rfl⟩

theorem queued?_eq_some {event : ServiceEvent} {entry : QueueEntry} :
    ServiceEvent.queued? event = some entry ↔ event = .called (.queued entry) () := by
  constructor
  · intro isQueued
    unfold ServiceEvent.queued? at isQueued
    split at isQueued
    · cases isQueued
      rfl
    · cases isQueued
  · rintro rfl
    rfl

theorem issuedBatch?_eq_some {event : ServiceEvent} {entries : List QueueEntry} :
    ServiceEvent.issuedBatch? event = some entries ↔ event = .issued (.insertRows entries) := by
  constructor
  · intro isIssued
    unfold ServiceEvent.issuedBatch? at isIssued
    split at isIssued
    · cases isIssued
      rfl
    · cases isIssued
  · rintro rfl
    rfl

theorem insertedBatch?_eq_some {event : ServiceEvent} {entries : List QueueEntry} :
    ServiceEvent.insertedBatch? event = some entries ↔
      ∃ generatedMaps, event = .answered (.insertRows entries) (.ok generatedMaps) := by
  constructor
  · intro isInserted
    unfold ServiceEvent.insertedBatch? at isInserted
    split at isInserted
    · cases isInserted
      exact ⟨_, rfl⟩
    · cases isInserted
  · rintro ⟨generatedMaps, rfl⟩
    rfl

theorem mem_queuedEntries {entry : QueueEntry} {trace : ServiceTrace} :
    entry ∈ queuedEntries trace ↔ ∃ caller, (caller, .called (.queued entry) ()) ∈ trace := by
  simp [queuedEntries, queued?_eq_some]

theorem mem_issuedBatches {flush : ℕ} {entries : List QueueEntry} {trace : ServiceTrace} :
    (flush, entries) ∈ issuedBatches trace ↔ (flush, .issued (.insertRows entries)) ∈ trace := by
  simp [issuedBatches, issuedBatch?_eq_some]

theorem mem_insertedBatches {flush : ℕ} {entries : List QueueEntry} {trace : ServiceTrace} :
    (flush, entries) ∈ insertedBatches trace ↔
      ∃ generatedMaps, (flush, .answered (.insertRows entries) (.ok generatedMaps)) ∈ trace := by
  simp only [insertedBatches, List.mem_filterMap, Option.map_eq_some_iff, insertedBatch?_eq_some]
  constructor
  · rintro ⟨⟨index, event⟩, member, entries', ⟨generatedMaps, rfl⟩, equal⟩
    cases equal
    exact ⟨generatedMaps, member⟩
  · rintro ⟨generatedMaps, member⟩
    exact ⟨_, member, entries, ⟨generatedMaps, rfl⟩, rfl⟩

section Monitor

variable {trace : ServiceTrace}

/-- A caller queues one entry. -/
theorem queued_unique (accepted : Accepted queueMonitor trace) {caller : ℕ} {first second : QueueEntry}
    (firstQueued : (caller, .called (.queued first) ()) ∈ trace)
    (secondQueued : (caller, .called (.queued second) ()) ∈ trace) : first = second := by
  have once : Accepted (fun trace me (event : ServiceEvent) =>
      (∃ entry, event = .called (.queued entry) ()) →
        ∀ event', (me, event') ∈ trace → ¬ ∃ entry, event' = .called (.queued entry) ()) trace := by
    refine accepted.mono ?_
    rintro earlier me event monitored ⟨entry, rfl⟩ event' member ⟨entry', rfl⟩
    exact monitored entry' member
  have same := eq_of_accepted once ⟨first, rfl⟩ ⟨second, rfl⟩ firstQueued secondQueued
  cases same
  rfl

/-- The database answers a batch once. -/
theorem answered_unique (accepted : Accepted queueMonitor trace) {flush : ℕ} {entries : List QueueEntry}
    {first second : ServiceAnswer (.insertRows entries)}
    (firstAnswered : (flush, .answered (.insertRows entries) first) ∈ trace)
    (secondAnswered : (flush, .answered (.insertRows entries) second) ∈ trace) : first = second := by
  have once : Accepted (fun trace me (event : ServiceEvent) =>
      (∃ entries answer, event = .answered (.insertRows entries) answer) →
        ∀ event', (me, event') ∈ trace → ¬ ∃ entries answer, event' = .answered (.insertRows entries) answer)
      trace := by
    refine accepted.mono ?_
    rintro earlier me event monitored ⟨entries, answer, rfl⟩ event' member ⟨entries', answer', rfl⟩
    exact monitored.2 entries' answer' member
  have same := eq_of_accepted once ⟨entries, first, rfl⟩ ⟨entries, second, rfl⟩ firstAnswered secondAnswered
  cases same
  rfl

theorem insertedBatches_nodup (accepted : Accepted queueMonitor trace) : (insertedBatches trace).Nodup := by
  apply List.Nodup.of_map Prod.fst
  apply nodup_of_accepted
  refine accepted.mono ?_
  intro earlier me event monitored isInserted event' member
  obtain ⟨entries, isInserted⟩ := Option.isSome_iff_exists.mp isInserted
  obtain ⟨generatedMaps, rfl⟩ := insertedBatch?_eq_some.mp isInserted
  apply Option.eq_none_iff_forall_not_mem.mpr
  intro entries' isInserted'
  obtain ⟨generatedMaps', rfl⟩ := insertedBatch?_eq_some.mp isInserted'
  exact monitored.2 entries' _ member

end Monitor

section Batches

variable {state : ClientServiceState} {trace : ServiceTrace}

theorem insertedBatches_subset (kept : QueueInvariant state trace) :
    insertedBatches trace ⊆ issuedBatches trace := by
  rintro ⟨flush, entries⟩ member
  obtain ⟨generatedMaps, inserted⟩ := mem_insertedBatches.mp member
  exact mem_issuedBatches.mpr (kept.asked flush entries _ inserted)

/-- Two queued entries with one subject are one entry. -/
theorem QueueInvariant.entry_eq (kept : QueueInvariant state trace) {first second : QueueEntry}
    (firstQueued : first ∈ queuedEntries trace) (secondQueued : second ∈ queuedEntries trace)
    (same : first.result = second.result) : first = second :=
  List.inj_on_of_nodup_map kept.distinct firstQueued secondQueued same

/-- The queue and the batches share no entry. -/
theorem QueueInvariant.apart (kept : QueueInvariant state trace) :
    (state.insertQueue ++ entriesOf (issuedBatches trace)).Nodup :=
  kept.accounted.nodup_iff.mp (List.Nodup.of_map _ kept.distinct)

/-- Two batches with one entry are one batch. -/
theorem QueueInvariant.batch_eq (kept : QueueInvariant state trace) {first second : ℕ × List QueueEntry}
    (firstIssued : first ∈ issuedBatches trace) (secondIssued : second ∈ issuedBatches trace)
    {entry : QueueEntry} (inFirst : entry ∈ first.2) (inSecond : entry ∈ second.2) : first = second := by
  by_contra different
  have disjoint : (issuedBatches trace).Pairwise fun first second => List.Disjoint first.2 second.2 :=
    (List.nodup_flatMap.mp (List.nodup_append.mp kept.apart).2.1).2
  have symmetric : Std.Symm fun first second : ℕ × List QueueEntry => List.Disjoint first.2 second.2 :=
    ⟨fun _ _ apart => List.Disjoint.symm apart⟩
  exact disjoint.forall firstIssued secondIssued different inFirst inSecond

/-- No entry is inserted twice. -/
theorem inserted_nodup (kept : QueueInvariant state trace) (accepted : Accepted queueMonitor trace) :
    ((entriesOf (insertedBatches trace)).map QueueEntry.result).Nodup := by
  obtain ⟨batches, permuted, sublist⟩ :=
    (insertedBatches_nodup accepted).subperm (insertedBatches_subset kept)
  have whole : ((state.insertQueue ++ entriesOf (issuedBatches trace)).map QueueEntry.result).Nodup :=
    (kept.accounted.map QueueEntry.result).nodup_iff.mp kept.distinct
  rw [List.map_append] at whole
  have issued := (List.nodup_append.mp whole).2.1
  have part : ((entriesOf batches).map QueueEntry.result).Nodup :=
    issued.sublist ((sublist.flatMap Prod.snd).map QueueEntry.result)
  exact ((permuted.flatMap_right Prod.snd).map QueueEntry.result).nodup_iff.mp part

end Batches

end ComptoMiningPool
