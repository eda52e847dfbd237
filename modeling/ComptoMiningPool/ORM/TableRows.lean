import ComptoMiningPool.ORM.Insertion

/-
This file follows the rows of the client table through submissions, flushes, deletions, and disconnects. It
proves what careful steps keep true of the rows and the sessions.
-/

namespace ComptoMiningPool

open JavaScript Async

/-- A session has queued its client. -/
def Submits (session : ℕ) (entry : QueueEntry) (trace : ServiceTrace) : Prop :=
  ∃ me, (me, .started (.submit session entry.partialClient)) ∈ trace ∧
    (me, .called (.queued entry) ()) ∈ trace

/-- The destroy of a session has run or runs. -/
def Destroyed (session : ℕ) (trace : ServiceTrace) : Prop :=
  ∃ me sessionId, (me, .started (.destroy session sessionId)) ∈ trace

/-- No connected session has submitted the entry. -/
def Orphaned (entry : QueueEntry) (trace : ServiceTrace) : Prop :=
  ∀ session, Submits session entry trace → Destroyed session trace

/-- The calls of the database succeed. -/
def Succeeds : (call : ServiceCall) → ServiceAnswer call → Prop
  | .insertRows _, answer => ∃ generatedMaps, answer = .ok generatedMaps
  | .killRows _, answer => answer = .ok ()
  | .softDelete _, answer => answer = .ok ()
  | _, _ => True

/-- A session submits its own id for the first time, or is destroyed under its own id. -/
def sessionMayStart (sessionIds : ℕ → String) (trace : ServiceTrace) : ServiceTask → Prop
  | .submit session partialClient => partialClient.sessionId = some (sessionIds session) ∧
      ∀ me partialClient', (me, .started (.submit session partialClient')) ∉ trace
  | .destroy session sessionId => sessionId = sessionIds session
  | _ => True

/-- The interleavings of sessions over a database whose calls succeed. -/
def sessionSemantics (sessionIds : ℕ → String) :
    Semantics ClientServiceState ServiceAnswer Thrown Unit ServiceTask where
  program := ServiceTask.program
  mayStart _ trace task := sessionMayStart sessionIds trace task
  admits me state trace call answer := serviceAdmits me state trace call answer ∧ Succeeds call answer
  disturbs := serviceSemantics.disturbs

/-- A session does not submit after its destroy, and its destroy finds its row in the table. -/
def CarefulStart (state : ClientServiceState) (trace : ServiceTrace) : ServiceTask → Prop
  | .submit session _ => ¬ Destroyed session trace
  | .destroy session _ => ∀ entry, Submits session entry trace → ¬ Pending state trace entry
  | _ => True

/-- An update deletes no row of a connected session. -/
def CarefulUpdate (state : ClientServiceState) (trace : ServiceTrace) : ServiceCall → Prop
  | .killRows fiveMinutes => ∀ row ∈ state.rows, ClientService.isDead fiveMinutes row = true →
      Orphaned row.entry trace
  | .softDelete sessionId => ∀ row ∈ state.rows, row.entry.partialClient.sessionId = some sessionId →
      Orphaned row.entry trace
  | _ => True

/-- The interleavings whose steps are all careful. -/
def carefulSemantics (sessionIds : ℕ → String) :
    Semantics ClientServiceState ServiceAnswer Thrown Unit ServiceTask where
  program := ServiceTask.program
  mayStart state trace task := sessionMayStart sessionIds trace task ∧ CarefulStart state trace task
  admits me state trace call answer :=
    (serviceAdmits me state trace call answer ∧ Succeeds call answer) ∧ CarefulUpdate state trace call
  disturbs := serviceSemantics.disturbs

/-- Rows are inserted entries, only rows of destroyed sessions are deleted, and a finished destroy has
deleted its rows. -/
structure RowInvariant (sessionIds : ℕ → String) (state : ClientServiceState) (trace : ServiceTrace) :
    Prop where
  rows : (state.rows.map ClientRow.entry).Perm (entriesOf (insertedBatches trace))
  submitted : ∀ entry ∈ queuedEntries trace, ∃ session, Submits session entry trace
  identified : ∀ me session partialClient, (me, .started (.submit session partialClient)) ∈ trace →
    partialClient.sessionId = some (sessionIds session)
  orphaned : ∀ row ∈ state.rows, row.deletedAt ≠ none → Orphaned row.entry trace
  gone : ∀ session entry, Submits session entry trace → Destroyed session trace → ¬ Pending state trace entry
  asked : ∀ me session sessionId, (me, .started (.destroy session sessionId)) ∈ trace →
    sessionId = sessionIds session ∧ (me, .issued (.softDelete sessionId)) ∈ trace
  deleted : ∀ me session sessionId answer, (me, .started (.destroy session sessionId)) ∈ trace →
    (me, .answered (.softDelete sessionId) answer) ∈ trace →
      ∀ row ∈ state.rows, Submits session row.entry trace → row.deletedAt ≠ none
  succeeded : ∀ flush entries thrown, (flush, .answered (.insertRows entries) (.error thrown)) ∉ trace

section Events

variable {sessionIds : ℕ → String} {state after : ClientServiceState} {trace : ServiceTrace} {me : ℕ}
  {event : ServiceEvent}

/-- An event that neither starts a task nor queues an entry. -/
structure Neutral (event : ServiceEvent) : Prop where
  started : ∀ task, event ≠ .started task
  queued : ∀ entry, event ≠ .called (.queued entry) ()

theorem mem_of_ne {index : ℕ} {other : ServiceEvent} (different : event ≠ other) :
    (index, other) ∈ (me, event) :: trace ↔ (index, other) ∈ trace := by
  constructor
  · intro member
    rcases List.mem_cons.mp member with equal | member
    · exact absurd (Prod.mk.inj equal).2.symm different
    · exact member
  · exact List.mem_cons_of_mem _

theorem Neutral.submits (neutral : Neutral event) {session : ℕ} {entry : QueueEntry} :
    Submits session entry ((me, event) :: trace) ↔ Submits session entry trace := by
  simp only [Submits, mem_of_ne (neutral.started _), mem_of_ne (neutral.queued _)]

theorem Neutral.destroyed (neutral : Neutral event) {session : ℕ} :
    Destroyed session ((me, event) :: trace) ↔ Destroyed session trace := by
  simp only [Destroyed, mem_of_ne (neutral.started _)]

theorem Neutral.orphaned (neutral : Neutral event) {entry : QueueEntry} :
    Orphaned entry ((me, event) :: trace) ↔ Orphaned entry trace := by
  simp only [Orphaned, neutral.submits, neutral.destroyed]

/-- An event that touches no batch and answers no deletion changes nothing about the rows. -/
structure Idle (event : ServiceEvent) : Prop extends Neutral event where
  issued : ∀ entries, event ≠ .issued (.insertRows entries)
  answered : ∀ entries answer, event ≠ .answered (.insertRows entries) answer
  deleted : ∀ sessionId answer, event ≠ .answered (.softDelete sessionId) answer

theorem neutral_issued (call : ServiceCall) : Neutral (.issued call) := ⟨fun _ => nofun, fun _ => nofun⟩

theorem neutral_answered (call : ServiceCall) (answer : ServiceAnswer call) :
    Neutral (.answered call answer) := ⟨fun _ => nofun, fun _ => nofun⟩

theorem idle_called (call : ServiceCall) (other : ∀ entry, call ≠ .queued entry) (answer : ServiceAnswer call) :
    Idle (.called call answer) where
  started _ := nofun
  queued := by
    intro entry equal
    cases equal
    exact other entry rfl
  issued _ := nofun
  answered _ _ := nofun
  deleted _ _ := nofun

theorem idle_issued (call : ServiceCall) (other : ∀ entries, call ≠ .insertRows entries) :
    Idle (.issued call) where
  toNeutral := neutral_issued call
  issued := by
    intro entries equal
    cases equal
    exact other entries rfl
  answered _ _ := nofun
  deleted _ _ := nofun

theorem idle_answered (call : ServiceCall) (other : ∀ entries, call ≠ .insertRows entries)
    (keeps : ∀ sessionId, call ≠ .softDelete sessionId) (answer : ServiceAnswer call) :
    Idle (.answered call answer) where
  toNeutral := neutral_answered call answer
  issued _ := nofun
  answered := by
    intro entries answer equal
    cases equal
    exact other entries rfl
  deleted := by
    intro sessionId answer equal
    cases equal
    exact keeps sessionId rfl

theorem Idle.pending (idle : Idle event) {entry : QueueEntry} :
    Pending state ((me, event) :: trace) entry ↔ Pending state trace entry := by
  simp only [Pending, mem_of_ne (idle.issued _), mem_of_ne (idle.answered _ _)]

theorem Neutral.queuedEntries (neutral : Neutral event) :
    queuedEntries ((me, event) :: trace) = queuedEntries trace := by
  apply List.filterMap_cons_none
  apply Option.eq_none_iff_forall_not_mem.mpr
  intro entry isQueued
  exact neutral.queued entry (queued?_eq_some.mp isQueued)

theorem insertedBatches_cons_of_ne
    (different : ∀ entries answer, event ≠ .answered (.insertRows entries) answer) :
    insertedBatches ((me, event) :: trace) = insertedBatches trace := by
  apply List.filterMap_cons_none
  apply Option.map_eq_none_iff.mpr
  apply Option.eq_none_iff_forall_not_mem.mpr
  intro entries isInserted
  obtain ⟨generatedMaps, equal⟩ := insertedBatch?_eq_some.mp isInserted
  exact different entries _ equal

theorem RowInvariant.idle (kept : RowInvariant sessionIds state trace) (idle : Idle event) :
    RowInvariant sessionIds state ((me, event) :: trace) := by
  constructor
  · rw [insertedBatches_cons_of_ne idle.answered]
    exact kept.rows
  · simp only [idle.queuedEntries, idle.submits]
    exact kept.submitted
  · simp only [mem_of_ne (idle.started _)]
    exact kept.identified
  · simp only [idle.orphaned]
    exact kept.orphaned
  · simp only [idle.submits, idle.destroyed, idle.pending]
    exact kept.gone
  · intro other session sessionId started
    have asked := kept.asked other session sessionId ((mem_of_ne (idle.started _)).mp started)
    exact ⟨asked.1, List.mem_cons_of_mem _ asked.2⟩
  · simp only [mem_of_ne (idle.started _), mem_of_ne (idle.deleted _ _), idle.submits]
    exact kept.deleted
  · simp only [mem_of_ne (idle.answered _ _)]
    exact kept.succeeded

/-- Changes apart from the queue and the rows keep the invariant. -/
theorem RowInvariant.same (kept : RowInvariant sessionIds state trace)
    (queue : after.insertQueue = state.insertQueue) (rows : after.rows = state.rows) :
    RowInvariant sessionIds after trace := by
  constructor
  · rw [rows]
    exact kept.rows
  · exact kept.submitted
  · exact kept.identified
  · rw [rows]
    exact kept.orphaned
  · simp only [Pending, queue]
    exact kept.gone
  · exact kept.asked
  · rw [rows]
    exact kept.deleted
  · exact kept.succeeded

/-- The start of a thread that destroys no session. -/
theorem RowInvariant.started (kept : RowInvariant sessionIds state trace) {task : ServiceTask}
    (fresh : ∀ event, (me, event) ∉ trace) (mayStart : sessionMayStart sessionIds trace task)
    (lasting : ∀ session sessionId, task ≠ .destroy session sessionId) :
    RowInvariant sessionIds state ((me, .started task) :: trace) := by
  have submits : ∀ session entry, Submits session entry ((me, .started task) :: trace) ↔
      Submits session entry trace := by
    intro session entry
    constructor
    · rintro ⟨caller, started, queued⟩
      have queuedBefore := (mem_of_ne (by simp)).mp queued
      rcases List.mem_cons.mp started with equal | startedBefore
      · cases equal
        exact absurd queuedBefore (fresh _)
      · exact ⟨caller, startedBefore, queuedBefore⟩
    · rintro ⟨caller, started, queued⟩
      exact ⟨caller, List.mem_cons_of_mem _ started, List.mem_cons_of_mem _ queued⟩
  have destroys : ∀ {index session sessionId}, (index, .started (.destroy session sessionId)) ∈
      (me, .started task) :: trace → (index, .started (.destroy session sessionId)) ∈ trace := by
    intro index session sessionId member
    rcases List.mem_cons.mp member with equal | member
    · cases equal
      exact absurd rfl (lasting session sessionId)
    · exact member
  have destroyed : ∀ session, Destroyed session ((me, .started task) :: trace) ↔ Destroyed session trace := by
    intro session
    constructor
    · rintro ⟨index, sessionId, started⟩
      exact ⟨index, sessionId, destroys started⟩
    · rintro ⟨index, sessionId, started⟩
      exact ⟨index, sessionId, List.mem_cons_of_mem _ started⟩
  constructor
  · exact kept.rows
  · intro entry queued
    obtain ⟨session, submitted⟩ := kept.submitted entry queued
    exact ⟨session, (submits session entry).mpr submitted⟩
  · intro index session partialClient started
    rcases List.mem_cons.mp started with equal | started
    · cases equal
      exact mayStart.1
    · exact kept.identified index session partialClient started
  · intro row member dead session submitted
    exact (destroyed session).mpr (kept.orphaned row member dead session ((submits _ _).mp submitted))
  · intro session entry submitted gone
    have absent := kept.gone session entry ((submits _ _).mp submitted) ((destroyed _).mp gone)
    rintro (waiting | ⟨flush, entries, issued, holds, unanswered⟩)
    · exact absent (.inl waiting)
    · rcases List.mem_cons.mp issued with equal | issued
      · cases equal
      · exact absent (.inr ⟨flush, entries, issued, holds,
          fun answer member => unanswered answer (List.mem_cons_of_mem _ member)⟩)
  · intro index session sessionId started
    have asked := kept.asked index session sessionId (destroys started)
    exact ⟨asked.1, List.mem_cons_of_mem _ asked.2⟩
  · intro index session sessionId answer started answered row member submitted
    rcases List.mem_cons.mp answered with equal | answered
    · cases equal
    · exact kept.deleted index session sessionId answer (destroys started) answered row member
        ((submits _ _).mp submitted)
  · intro flush entries thrown failed
    rcases List.mem_cons.mp failed with equal | failed
    · cases equal
    · exact kept.succeeded flush entries thrown failed

theorem submits_destroy_iff {destroyer session : ℕ} {sessionId : String} {entry : QueueEntry} :
    Submits session entry ((me, .started (.destroy destroyer sessionId)) :: trace) ↔
      Submits session entry trace := by
  simp [Submits]

theorem destroyed_destroy_iff {destroyer session : ℕ} {sessionId : String} :
    Destroyed session ((me, .started (.destroy destroyer sessionId)) :: trace) ↔
      session = destroyer ∨ Destroyed session trace := by
  constructor
  · rintro ⟨index, sessionId', started⟩
    rcases List.mem_cons.mp started with equal | started
    · cases equal
      exact .inl rfl
    · exact .inr ⟨index, sessionId', started⟩
  · rintro (rfl | ⟨index, sessionId', started⟩)
    · exact ⟨me, sessionId, List.mem_cons_self⟩
    · exact ⟨index, sessionId', List.mem_cons_of_mem _ started⟩

/-- A destroy that finds no pending entry of its session asks for the deletion of its rows. -/
theorem RowInvariant.destroying (kept : RowInvariant sessionIds state trace) {destroyer : ℕ}
    (fresh : ∀ event, (me, event) ∉ trace)
    (finds : ∀ entry, Submits destroyer entry trace → ¬ Pending state trace entry) :
    RowInvariant sessionIds state ((me, .issued (.softDelete (sessionIds destroyer))) ::
      (me, .started (.destroy destroyer (sessionIds destroyer))) :: trace) := by
  have neutral := neutral_issued (.softDelete (sessionIds destroyer))
  constructor
  · exact kept.rows
  · intro entry queued
    obtain ⟨session, submitted⟩ := kept.submitted entry queued
    exact ⟨session, neutral.submits.mpr (submits_destroy_iff.mpr submitted)⟩
  · intro index session partialClient started
    replace started := (mem_of_ne (by simp)).mp ((mem_of_ne (by simp)).mp started)
    exact kept.identified index session partialClient started
  · intro row member dead
    rw [neutral.orphaned]
    intro session submitted
    exact destroyed_destroy_iff.mpr
      (.inr (kept.orphaned row member dead session (submits_destroy_iff.mp submitted)))
  · intro session entry submitted gone
    rw [neutral.submits, submits_destroy_iff] at submitted
    rw [neutral.destroyed, destroyed_destroy_iff] at gone
    have absent : ¬ Pending state trace entry := by
      rcases gone with rfl | gone
      · exact finds entry submitted
      · exact kept.gone session entry submitted gone
    rintro (waiting | ⟨flush, entries, issued, holds, unanswered⟩)
    · exact absent (.inl waiting)
    · replace issued := (mem_of_ne (by simp)).mp ((mem_of_ne (by simp)).mp issued)
      refine absent (.inr ⟨flush, entries, issued, holds, ?_⟩)
      intro answer member
      exact unanswered answer (List.mem_cons_of_mem _ (List.mem_cons_of_mem _ member))
  · intro index session sessionId started
    replace started := (mem_of_ne (by simp)).mp started
    rcases List.mem_cons.mp started with equal | started
    · cases equal
      exact ⟨rfl, List.mem_cons_self⟩
    · have asked := kept.asked index session sessionId started
      exact ⟨asked.1, List.mem_cons_of_mem _ (List.mem_cons_of_mem _ asked.2)⟩
  · intro index session sessionId answer started answered row member submitted
    rw [neutral.submits, submits_destroy_iff] at submitted
    replace answered := (mem_of_ne (by simp)).mp ((mem_of_ne (by simp)).mp answered)
    replace started := (mem_of_ne (by simp)).mp started
    rcases List.mem_cons.mp started with equal | started
    · cases equal
      exact absurd answered (fresh _)
    · exact kept.deleted index session sessionId answer started answered row member submitted
  · intro flush entries thrown failed
    replace failed := (mem_of_ne (by simp)).mp ((mem_of_ne (by simp)).mp failed)
    exact kept.succeeded flush entries thrown failed

/-- A row belongs to an entry that was queued. -/
theorem RowInvariant.row_queued (kept : RowInvariant sessionIds state trace)
    (accounted : QueueInvariant state trace) {row : ClientRow} (member : row ∈ state.rows) :
    row.entry ∈ queuedEntries trace := by
  have inserted := kept.rows.mem_iff.mp (@List.mem_map_of_mem _ _ _ _ ClientRow.entry member)
  obtain ⟨batch, isInserted, holds⟩ := List.mem_flatMap.mp inserted
  apply accounted.accounted.mem_iff.mpr
  exact List.mem_append_right _
    (List.mem_flatMap.mpr ⟨batch, insertedBatches_subset accounted isInserted, holds⟩)

/-- The next entry is none of the queued ones. -/
theorem ne_next_of_queued (accounted : QueueInvariant state trace) {entry : QueueEntry}
    (queued : entry ∈ queuedEntries trace) (partialClient : PartialClient) :
    entry ≠ ⟨state.nextSubject, partialClient⟩ := by
  rintro rfl
  exact absurd (accounted.fresh _ queued) (lt_irrefl _)

theorem destroyed_queued_iff {session : ℕ} {entry : QueueEntry} :
    Destroyed session ((me, .called (.queued entry) ()) :: trace) ↔ Destroyed session trace := by
  simp [Destroyed]

/-- A queued entry is submitted by the session of its thread. -/
theorem submits_of_queued {submitter session : ℕ} {partialClient : PartialClient} {newest entry : QueueEntry}
    (only : ∀ task, (me, .started task) ∈ trace → task = .submit submitter partialClient)
    (submitted : Submits session entry ((me, .called (.queued newest) ()) :: trace)) :
    (session = submitter ∧ entry = newest) ∨ Submits session entry trace := by
  obtain ⟨caller, startedBefore, queued⟩ := submitted
  replace startedBefore := (mem_of_ne (by simp)).mp startedBefore
  rcases List.mem_cons.mp queued with equal | queued
  · cases equal
    cases only _ startedBefore
    exact .inl ⟨rfl, rfl⟩
  · exact .inr ⟨caller, startedBefore, queued⟩

/-- A session that is not destroyed queues a new entry. -/
theorem RowInvariant.queue (kept : RowInvariant sessionIds state trace) (accounted : QueueInvariant state trace)
    {submitter : ℕ} {partialClient : PartialClient}
    (started : (me, .started (.submit submitter partialClient)) ∈ trace)
    (only : ∀ task, (me, .started task) ∈ trace → task = .submit submitter partialClient)
    (connected : ¬ Destroyed submitter trace)
    (queue : after.insertQueue = state.insertQueue ++ [⟨state.nextSubject, partialClient⟩])
    (rows : after.rows = state.rows) :
    RowInvariant sessionIds after
      ((me, .called (.queued ⟨state.nextSubject, partialClient⟩) ()) :: trace) := by
  constructor
  · rw [rows]
    exact kept.rows
  · intro entry queued
    rcases List.mem_cons.mp queued with rfl | queued
    · exact ⟨submitter, me, List.mem_cons_of_mem _ started, List.mem_cons_self⟩
    · obtain ⟨session, caller, startedBefore, queuedBefore⟩ := kept.submitted entry queued
      exact ⟨session, caller, List.mem_cons_of_mem _ startedBefore, List.mem_cons_of_mem _ queuedBefore⟩
  · intro index session other startedBefore
    replace startedBefore := (mem_of_ne (by simp)).mp startedBefore
    exact kept.identified index session other startedBefore
  · rw [rows]
    intro row member dead session submitted
    rcases submits_of_queued only submitted with ⟨_, equal⟩ | submitted
    · exact absurd equal (ne_next_of_queued accounted (kept.row_queued accounted member) partialClient)
    · exact destroyed_queued_iff.mpr (kept.orphaned row member dead session submitted)
  · intro session entry submitted gone
    rw [destroyed_queued_iff] at gone
    rcases submits_of_queued only submitted with ⟨rfl, _⟩ | submitted
    · exact absurd gone connected
    · have absent := kept.gone session entry submitted gone
      obtain ⟨caller, _, queued⟩ := submitted
      rintro (waiting | ⟨flush, entries, issued, holds, unanswered⟩)
      · rw [queue] at waiting
        rcases List.mem_append.mp waiting with waiting | newest
        · exact absent (.inl waiting)
        · exact ne_next_of_queued accounted (mem_queuedEntries.mpr ⟨caller, queued⟩) partialClient
            (List.mem_singleton.mp newest)
      · replace issued := (mem_of_ne (by simp)).mp issued
        exact absent (.inr ⟨flush, entries, issued, holds,
          fun answer member => unanswered answer (List.mem_cons_of_mem _ member)⟩)
  · intro index session sessionId startedBefore
    replace startedBefore := (mem_of_ne (by simp)).mp startedBefore
    have asked := kept.asked index session sessionId startedBefore
    exact ⟨asked.1, List.mem_cons_of_mem _ asked.2⟩
  · rw [rows]
    intro index session sessionId answer startedBefore answered row member submitted
    replace startedBefore := (mem_of_ne (by simp)).mp startedBefore
    replace answered := (mem_of_ne (by simp)).mp answered
    rcases submits_of_queued only submitted with ⟨rfl, _⟩ | submitted
    · exact absurd ⟨index, sessionId, startedBefore⟩ connected
    · exact kept.deleted index session sessionId answer startedBefore answered row member submitted
  · intro flush entries thrown failed
    replace failed := (mem_of_ne (by simp)).mp failed
    exact kept.succeeded flush entries thrown failed

/-- A flush keeps its entries pending. -/
theorem RowInvariant.issue (kept : RowInvariant sessionIds state trace) (queue : after.insertQueue = [])
    (rows : after.rows = state.rows) :
    RowInvariant sessionIds after ((me, .issued (.insertRows state.insertQueue)) :: trace) := by
  have neutral := neutral_issued (.insertRows state.insertQueue)
  constructor
  · rw [rows]
    exact kept.rows
  · simp only [neutral.queuedEntries, neutral.submits]
    exact kept.submitted
  · simp only [mem_of_ne (neutral.started _)]
    exact kept.identified
  · simp only [rows, neutral.orphaned]
    exact kept.orphaned
  · simp only [neutral.submits, neutral.destroyed]
    intro session entry submitted gone
    have absent := kept.gone session entry submitted gone
    rintro (waiting | ⟨flush, entries, issued, holds, unanswered⟩)
    · rw [queue] at waiting
      cases waiting
    · rcases List.mem_cons.mp issued with equal | issued
      · cases equal
        exact absent (.inl holds)
      · exact absent (.inr ⟨flush, entries, issued, holds,
          fun answer member => unanswered answer (List.mem_cons_of_mem _ member)⟩)
  · intro index session sessionId started
    have asked := kept.asked index session sessionId ((mem_of_ne (by simp)).mp started)
    exact ⟨asked.1, List.mem_cons_of_mem _ asked.2⟩
  · intro index session sessionId answer started answered
    rw [rows]
    simp only [neutral.submits]
    exact kept.deleted index session sessionId answer ((mem_of_ne (by simp)).mp started)
      ((mem_of_ne (by simp)).mp answered)
  · intro flush entries thrown failed
    exact kept.succeeded flush entries thrown ((mem_of_ne (by simp)).mp failed)

/-- The rows of a batch belong to no destroyed session, since its entries were pending. -/
theorem RowInvariant.insert (kept : RowInvariant sessionIds state trace) {entries : List QueueEntry}
    {generatedMaps : List ObjectLiteral} (issued : (me, .issued (.insertRows entries)) ∈ trace)
    (unanswered : ∀ answer, (me, .answered (.insertRows entries) answer) ∉ trace)
    (queue : after.insertQueue = state.insertQueue)
    (rows : after.rows = state.rows ++ entries.map fun entry => ⟨entry, state.now / 1000, none⟩) :
    RowInvariant sessionIds after ((me, .answered (.insertRows entries) (.ok generatedMaps)) :: trace) := by
  have neutral := neutral_answered (.insertRows entries) (.ok generatedMaps)
  have inserted : insertedBatches ((me, .answered (.insertRows entries) (.ok generatedMaps)) :: trace) =
      (me, entries) :: insertedBatches trace := rfl
  have alive : ∀ row ∈ after.rows, row ∈ state.rows ∨ (row.entry ∈ entries ∧ row.deletedAt = none) := by
    intro row member
    rw [rows] at member
    rcases List.mem_append.mp member with member | member
    · exact .inl member
    · obtain ⟨entry, holds, rfl⟩ := List.mem_map.mp member
      exact .inr ⟨holds, rfl⟩
  constructor
  · rw [rows, inserted, List.map_append, List.map_map]
    have same : entries.map (ClientRow.entry ∘ fun entry => ⟨entry, state.now / 1000, none⟩) = entries :=
      List.map_id entries
    rw [same]
    exact List.perm_append_comm.trans (kept.rows.append_left entries)
  · simp only [neutral.queuedEntries, neutral.submits]
    exact kept.submitted
  · simp only [mem_of_ne (neutral.started _)]
    exact kept.identified
  · simp only [neutral.orphaned]
    intro row member dead
    rcases alive row member with member | ⟨_, living⟩
    · exact kept.orphaned row member dead
    · exact absurd living dead
  · simp only [neutral.submits, neutral.destroyed]
    intro session entry submitted gone
    have absent := kept.gone session entry submitted gone
    rintro (waiting | ⟨flush, batch, sent, holds, outstanding⟩)
    · rw [queue] at waiting
      exact absent (.inl waiting)
    · exact absent (.inr ⟨flush, batch, (mem_of_ne (by simp)).mp sent, holds,
        fun answer member => outstanding answer (List.mem_cons_of_mem _ member)⟩)
  · intro index session sessionId started
    have asked := kept.asked index session sessionId ((mem_of_ne (by simp)).mp started)
    exact ⟨asked.1, List.mem_cons_of_mem _ asked.2⟩
  · intro index session sessionId answer started answered row member submitted
    replace started := (mem_of_ne (by simp)).mp started
    replace answered := (mem_of_ne (by simp)).mp answered
    rw [neutral.submits] at submitted
    rcases alive row member with member | ⟨holds, _⟩
    · exact kept.deleted index session sessionId answer started answered row member submitted
    · have gone := kept.gone session row.entry submitted ⟨index, sessionId, started⟩
      exact absurd (.inr ⟨me, entries, issued, holds, unanswered⟩) gone
  · intro flush batch thrown failed
    rcases List.mem_cons.mp failed with equal | failed
    · cases equal
    · exact kept.succeeded flush batch thrown failed

/-- An update that meets orphaned rows only. -/
theorem RowInvariant.delete (kept : RowInvariant sessionIds state trace) {condition : ClientRow → Bool}
    (careful : ∀ row ∈ state.rows, condition row = true → Orphaned row.entry trace)
    (queue : after.insertQueue = state.insertQueue)
    (rows : after.rows = state.rows.map fun row =>
      if condition row then ClientService.softDeleted state.now row else row) :
    RowInvariant sessionIds after trace := by
  have origin : ∀ row ∈ after.rows, ∃ before ∈ state.rows, row.entry = before.entry ∧
      (row.deletedAt ≠ none ↔ before.deletedAt ≠ none ∨ condition before = true) := by
    intro row member
    rw [rows] at member
    obtain ⟨before, inside, rfl⟩ := List.mem_map.mp member
    refine ⟨before, inside, ?_⟩
    cases met : condition before with
    | false => simp
    | true => simp [ClientService.softDeleted]
  constructor
  · have same : after.rows.map ClientRow.entry = state.rows.map ClientRow.entry := by
      rw [rows, List.map_map]
      apply List.map_congr_left
      intro row _
      simp only [Function.comp_apply]
      split <;> rfl
    rw [same]
    exact kept.rows
  · exact kept.submitted
  · exact kept.identified
  · intro row member dead
    obtain ⟨before, inside, same, deleted⟩ := origin row member
    rw [same]
    rcases deleted.mp dead with dead | met
    · exact kept.orphaned before inside dead
    · exact careful before inside met
  · simp only [Pending, queue]
    exact kept.gone
  · exact kept.asked
  · intro index session sessionId answer started answered row member submitted
    obtain ⟨before, inside, same, deleted⟩ := origin row member
    rw [same] at submitted
    exact deleted.mpr
      (.inl (kept.deleted index session sessionId answer started answered before inside submitted))
  · exact kept.succeeded

/-- A destroy that is answered has deleted the rows of its session. -/
theorem RowInvariant.destroyed (kept : RowInvariant sessionIds state trace) {destroyer : ℕ}
    {answer : ServiceAnswer (.softDelete (sessionIds destroyer))}
    (only : ∀ task, (me, .started task) ∈ trace → task = .destroy destroyer (sessionIds destroyer))
    (rows : ∀ row ∈ state.rows,
      row.entry.partialClient.sessionId = some (sessionIds destroyer) → row.deletedAt ≠ none) :
    RowInvariant sessionIds state ((me, .answered (.softDelete (sessionIds destroyer)) answer) :: trace) := by
  have neutral := neutral_answered (.softDelete (sessionIds destroyer)) answer
  constructor
  · exact kept.rows
  · simp only [neutral.queuedEntries, neutral.submits]
    exact kept.submitted
  · simp only [mem_of_ne (neutral.started _)]
    exact kept.identified
  · simp only [neutral.orphaned]
    exact kept.orphaned
  · simp only [neutral.submits, neutral.destroyed]
    intro session entry submitted gone
    have absent := kept.gone session entry submitted gone
    rintro (waiting | ⟨flush, entries, issued, holds, unanswered⟩)
    · exact absent (.inl waiting)
    · exact absent (.inr ⟨flush, entries, (mem_of_ne (by simp)).mp issued, holds,
        fun answer member => unanswered answer (List.mem_cons_of_mem _ member)⟩)
  · intro index session sessionId startedBefore
    have asked := kept.asked index session sessionId ((mem_of_ne (by simp)).mp startedBefore)
    exact ⟨asked.1, List.mem_cons_of_mem _ asked.2⟩
  · intro index session sessionId other startedBefore answered row member submitted
    replace startedBefore := (mem_of_ne (by simp)).mp startedBefore
    rw [neutral.submits] at submitted
    rcases List.mem_cons.mp answered with equal | answered
    · cases equal
      cases only _ startedBefore
      obtain ⟨caller, submit, _⟩ := submitted
      exact rows row member (kept.identified caller _ _ submit)
    · exact kept.deleted index session sessionId other startedBefore answered row member submitted
  · intro flush entries thrown failed
    exact kept.succeeded flush entries thrown ((mem_of_ne (by simp)).mp failed)

end Events

def rowContract (sessionIds : ℕ → String) : Contract ClientServiceState ServiceAnswer ServiceTask where
  admits := (carefulSemantics sessionIds).admits
  monitor _ _ _ := True
  rely _ _ := True
  invariant state trace := QueueInvariant state trace ∧ RowInvariant sessionIds state trace

section Programs

variable {sessionIds : ℕ → String} {state : ClientServiceState} {trace : ServiceTrace} {me : ℕ}
  {V : Type} {post : Post ClientServiceState ServiceAnswer Thrown V ServiceTask}

theorem rowContract_turn {next : Unit → ServiceProgram V}
    (kept : (rowContract sessionIds).invariant state trace)
    (continues : ∀ state' trace', (rowContract sessionIds).invariant state' trace' →
      wp (rowContract sessionIds) me (next ()) post state' trace') :
    wp (rowContract sessionIds) me (.await .turn next) post state trace := by
  have issued : Idle (.issued .turn) := idle_issued .turn fun _ => nofun
  refine ⟨trivial, ⟨kept.1.quiet ⟨rfl, rfl, id⟩, kept.2.idle issued⟩, ?_⟩
  intro state' trace' _ _ kept' answer _
  have answered : Idle (.answered .turn answer) := idle_answered .turn (fun _ => nofun) (fun _ => nofun) answer
  exact ⟨trivial, continues state' _ ⟨kept'.1.quiet ⟨rfl, rfl, id⟩, kept'.2.idle answered⟩⟩

theorem rowContract_submit {session : ℕ} {partialClient : PartialClient}
    (kept : (rowContract sessionIds).invariant state trace)
    (started : (me, .started (.submit session partialClient)) ∈ trace)
    (only : ∀ task, (me, .started task) ∈ trace → task = .submit session partialClient)
    (connected : ¬ Destroyed session trace) :
    wp (rowContract sessionIds) me (receiveClient partialClient)
      (fun _ => (rowContract sessionIds).invariant) state trace := by
  refine ⟨trivial, trivial, trivial, fun _ _ => ⟨trivial, ?_⟩⟩
  apply rowContract_turn
  · exact ⟨kept.1.queue rfl rfl rfl, kept.2.queue kept.1 started only connected rfl rfl⟩
  · intro state₁ trace₁ kept₁
    apply rowContract_turn kept₁
    intro state₂ trace₂ kept₂ answer _
    exact ⟨trivial, kept₂.1.quiet ⟨rfl, rfl, id⟩, kept₂.2.idle (idle_called (.resolved _) (fun _ => nofun) answer)⟩

theorem rowContract_handOver (generatedMaps : List ObjectLiteral) (entries : List QueueEntry) (index : ℕ)
    (kept : (rowContract sessionIds).invariant state trace) :
    wp (rowContract sessionIds) me (ClientService.handOver generatedMaps entries index)
      (fun _ => (rowContract sessionIds).invariant) state trace := by
  induction entries generalizing index state with
  | nil => exact kept
  | cons entry rest ih => exact ⟨trivial, ih (index + 1) ⟨kept.1.same rfl rfl, kept.2.same rfl rfl⟩⟩

theorem rowContract_insertClients (kept : (rowContract sessionIds).invariant state trace)
    (none : ∀ entries answer, (me, .answered (.insertRows entries) answer) ∉ trace) :
    wp (rowContract sessionIds) me ClientService.insertClients
      (fun _ => (rowContract sessionIds).invariant) state trace := by
  refine ⟨trivial, trivial, ⟨kept.1.issue rfl rfl, kept.2.issue rfl rfl⟩, ?_⟩
  rintro state' trace' _ extension kept' answer ⟨⟨⟨done, _⟩, generatedMaps, rfl⟩, _⟩
  have issued : (me, .issued (.insertRows state.insertQueue)) ∈ trace' := extension.mem List.mem_cons_self
  have unanswered : ∀ answer, (me, .answered (.insertRows state.insertQueue) answer) ∉ trace' := by
    intro answer member
    exact none _ answer ((mem_of_ne (by simp)).mp (extension.mem_of_mine member))
  have accounted : QueueInvariant state'
      ((me, .answered (.insertRows state.insertQueue) (.ok generatedMaps)) :: trace') := by
    apply kept'.1.persist done
    rintro entries same
    cases same
    exact issued
  exact ⟨trivial, trivial, rowContract_handOver generatedMaps _ 0
    ⟨accounted.same rfl rfl, kept'.2.insert issued unanswered rfl rfl⟩⟩

theorem rowContract_killDeadClients (kept : (rowContract sessionIds).invariant state trace) :
    wp (rowContract sessionIds) me ClientService.killDeadClients
      (fun _ => (rowContract sessionIds).invariant) state trace := by
  intro now _
  have called : Idle (.called .now now) := idle_called .now (fun _ => nofun) now
  have issued : Idle (.issued (.killRows ((now - 5 * 60 * 1000) / 1000))) := idle_issued _ fun _ => nofun
  refine ⟨trivial, trivial, ⟨(kept.1.quiet ⟨rfl, rfl, id⟩).quiet ⟨rfl, rfl, id⟩,
    (kept.2.idle called).idle issued⟩, ?_⟩
  rintro state' trace' _ _ kept' answer ⟨⟨done, rfl⟩, careful⟩
  have answered : Idle (.answered (.killRows ((now - 5 * 60 * 1000) / 1000)) (.ok ())) :=
    idle_answered (.killRows _) (fun _ => nofun) (fun _ => nofun) (.ok ())
  have accounted : QueueInvariant state'
      ((me, .answered (.killRows ((now - 5 * 60 * 1000) / 1000)) (.ok ())) :: trace') :=
    kept'.1.persist done fun _ => nofun
  exact ⟨trivial, trivial, accounted.same rfl rfl, (kept'.2.delete careful (by rfl) (by rfl)).idle answered⟩

theorem rowContract_destroy {session : ℕ} (kept : (rowContract sessionIds).invariant state trace)
    (fresh : ∀ event, (me, event) ∉ trace)
    (finds : ∀ entry, Submits session entry trace → ¬ Pending state trace entry) :
    wp (rowContract sessionIds) me (ClientService.delete (sessionIds session))
      (fun _ => (rowContract sessionIds).invariant) state
      ((me, .started (.destroy session (sessionIds session))) :: trace) := by
  refine ⟨trivial, ⟨(kept.1.quiet ⟨rfl, rfl, id⟩).quiet ⟨rfl, rfl, id⟩, kept.2.destroying fresh finds⟩, ?_⟩
  rintro state' trace' _ extension kept' answer ⟨⟨done, rfl⟩, careful⟩
  have only : ∀ task, (me, .started task) ∈ trace' → task = .destroy session (sessionIds session) := by
    intro task member
    have mine := (mem_of_ne (by simp)).mp (extension.mem_of_mine member)
    rcases List.mem_cons.mp mine with equal | earlier
    · cases equal
      rfl
    · exact absurd earlier (fresh _)
  have accounted : QueueInvariant state'
      ((me, .answered (.softDelete (sessionIds session)) (.ok ())) :: trace') :=
    kept'.1.persist done fun _ => nofun
  refine ⟨trivial, trivial, accounted.same rfl rfl, ?_⟩
  apply RowInvariant.destroyed _ only
  · intro row member identified
    obtain ⟨before, inside, rfl⟩ := List.mem_map.mp member
    by_cases met : before.entry.partialClient.sessionId = some (sessionIds session)
    · simp [met, ClientService.softDeleted]
    · simp [met] at identified
  · apply kept'.2.delete _ (by rfl) (by rfl)
    intro row member identified
    exact careful row member (by simpa using identified)

end Programs

/-- Every careful interleaving keeps the rows in step with the sessions. -/
theorem rowContract_proved (sessionIds : ℕ → String) :
    (rowContract sessionIds).Proved (carefulSemantics sessionIds) {} where
  sameAnswers := rfl
  relyRefl _ := trivial
  relyTrans _ _ _ _ _ := trivial
  initially := by
    refine ⟨queueContract_proved.initially, ?_⟩
    constructor
    · exact List.Perm.refl _
    · intro entry member
      cases member
    · intro me session partialClient member
      cases member
    · intro row member
      cases member
    · rintro session entry ⟨me, member, _⟩
      cases member
    · intro me session sessionId member
      cases member
    · intro me session sessionId answer member
      cases member
    · intro flush entries thrown member
      cases member
  starts := by
    rintro state trace me task kept ⟨mayStart, careful⟩ fresh
    refine ⟨trivial, ?_⟩
    have only : ∀ event, (me, event) ∈ (me, .started task) :: trace → event = .started task := by
      intro event member
      rcases List.mem_cons.mp member with equal | member
      · cases equal
        rfl
      · exact absurd member (fresh event)
    have accounted : QueueInvariant state ((me, .started task) :: trace) := kept.1.quiet ⟨rfl, rfl, id⟩
    cases task with
    | submit session partialClient =>
        have started := kept.2.started fresh mayStart (by simp)
        apply rowContract_submit ⟨accounted, started⟩ List.mem_cons_self
        · intro task member
          cases only _ member
          rfl
        · rintro ⟨index, sessionId, destroys⟩
          exact careful ⟨index, sessionId, (mem_of_ne (by simp)).mp destroys⟩
    | insertClients =>
        have started := kept.2.started fresh mayStart (by simp)
        exact rowContract_insertClients ⟨accounted, started⟩ fun entries answer member =>
          nomatch only _ member
    | killDeadClients =>
        exact rowContract_killDeadClients ⟨accounted, kept.2.started fresh mayStart (by simp)⟩
    | destroy session sessionId =>
        obtain rfl : sessionId = sessionIds session := mayStart
        exact rowContract_destroy kept fresh careful
  disturbed := by
    rintro state _ trace kept ⟨now, _, rfl⟩
    exact ⟨trivial, kept.1.same rfl rfl, kept.2.same rfl rfl⟩

end ComptoMiningPool
