import ComptoMiningPool.Async.Channel
import ComptoMiningPool.Async.Threads

/-
This file lets many callers hand requests to one service that they share. It proves that each answer to a
caller comes from a thread of the service that works for this answer alone.
-/

namespace Async

/-- A delegation fixes the rules of the callers and of their service. It names the task that the service starts
for a request, and the answers that the result of the task gives. -/
structure Delegation (S : Type) {C : Type} (A : C → Type) (E V L : Type) (T : Type) {D : Type} (B : D → Type)
    (F W K : Type) where
  caller : Semantics S A E V L
  opens : S
  service : Semantics T B F W K
  task : C → Option K
  gives : (request : C) → Except F W → A request → Prop

/-- A call is a request of one thread of one caller. The own history of the thread ends with the request. -/
structure Call {C : Type} (A : C → Type) (L : Type) where
  caller : ℕ
  thread : ℕ
  request : C
  history : History A L

variable {S C E V L T D F W K : Type} {A : C → Type} {B : D → Type}

/-- The callers share one service. The ledger keeps the call that a thread of the service works for. -/
structure Hub (delegation : Delegation S A E V L T B F W K) where
  callers : List (System S A E V L)
  service : System T B F W K
  ledger : List (ℕ × Call A L)

/-- A thread that has ended never runs again. -/
theorem Step.ended {rules : Semantics S A E V L} {before after : System S A E V L} (step : Step rules before after)
    {index : ℕ} {result : Except E V} (ended : before.threads[index]? = some (.ended result)) :
    after.threads[index]? = some (.ended result) := by
  cases step with
  | start label enabled segment =>
      rw [List.getElem?_append_left (List.getElem?_eq_some_iff.mp ended).1]
      exact ended
  | resume other waiting answer admitted segment =>
      have different : other ≠ index := by
        rintro rfl
        rw [ended] at waiting
        cases waiting
      rw [List.getElem?_set_ne different]
      exact ended
  | disturb state' disturbed => exact ended

theorem Step.length_le {rules : Semantics S A E V L} {before after : System S A E V L}
    (step : Step rules before after) : before.threads.length ≤ after.threads.length := by
  cases step with
  | start label enabled segment => simp
  | resume other waiting answer admitted segment => simp
  | disturb state' disturbed => exact le_rfl

namespace Hub

variable {delegation : Delegation S A E V L T B F W K}

def initial (delegation : Delegation S A E V L T B F W K) (state : T) : Hub delegation := ⟨[], ⟨state, [], []⟩, []⟩

/-- A thread of the service has served the call when its result gives the answer. -/
def Served (hub : Hub delegation) (call : Call A L) (answer : A call.request) : Prop :=
  ∃ thread result, (thread, call) ∈ hub.ledger ∧ hub.service.threads[thread]? = some (.ended result) ∧
    delegation.gives call.request result answer

/-- Each delegated request of the caller was served before it was answered. -/
def Delivers (hub : Hub delegation) (caller : ℕ) (system : System S A E V L) : Prop :=
  ∀ me request answer history, .answered request answer :: history <:+ own me system.trace →
    (delegation.task request).isSome = true → hub.Served ⟨caller, me, request, history⟩ answer

/-- A caller joins or steps, the service steps by itself, or it begins the task of a waiting call. -/
inductive Step : Hub delegation → Hub delegation → Prop where
  | join {hub : Hub delegation} : Step hub { hub with callers := hub.callers ++ [⟨delegation.opens, [], []⟩] }
  | caller {hub : Hub delegation} (index : ℕ) {before after : System S A E V L}
      (found : hub.callers[index]? = some before) (step : Async.Step delegation.caller before after)
      (delivered : hub.Delivers index after) : Step hub { hub with callers := hub.callers.set index after }
  | service {hub : Hub delegation} {after : System T B F W K}
      (step : Async.Step delegation.service hub.service after) : Step hub { hub with service := after }
  | begin {hub : Hub delegation} (call : Call A L) {system : System S A E V L}
      {next : A call.request → Program S A E V} {label : K} {after : System T B F W K}
      (found : hub.callers[call.caller]? = some system)
      (waits : system.threads[call.thread]? = some (.waiting call.request next))
      (asks : own call.thread system.trace = call.history)
      (delegated : delegation.task call.request = some label) (fresh : call ∉ hub.ledger.map Prod.snd)
      (step : Async.Step delegation.service hub.service after)
      (started : (hub.service.threads.length, .started label) ∈ after.trace) :
      Step hub { hub with service := after, ledger := (hub.service.threads.length, call) :: hub.ledger }

/-- A hub is reachable when finitely many steps lead to it from a hub without callers. -/
def Reachable (state : T) (hub : Hub delegation) : Prop := Relation.ReflTransGen Step (initial delegation state) hub

/-- The ledger gives each call one thread that started its task after the caller had asked for it, and each thread
one call. -/
structure Sound (state : T) (hub : Hub delegation) : Prop where
  callers : ∀ {index system}, hub.callers[index]? = some system →
    Async.Reachable delegation.caller delegation.opens system ∧ hub.Delivers index system
  service : Async.Reachable delegation.service state hub.service
  threads : (hub.ledger.map Prod.fst).Nodup
  begun : ∀ {thread call}, (thread, call) ∈ hub.ledger → thread < hub.service.threads.length ∧
    ∃ label, delegation.task call.request = some label ∧ (thread, .started label) ∈ hub.service.trace
  asked : ∀ {thread call}, (thread, call) ∈ hub.ledger → call.history.head? = some (.issued call.request) ∧
    ∃ system, hub.callers[call.caller]? = some system ∧ call.history <:+ own call.thread system.trace
  calls : (hub.ledger.map Prod.snd).Nodup

variable {state : T} {before after : Hub delegation}

/-- A served call stays served. -/
theorem Served.later {call : Call A L} {answer : A call.request} (served : before.Served call answer)
    (kept : before.ledger ⊆ after.ledger) (ended : ∀ {thread : ℕ} {result : Except F W},
      before.service.threads[thread]? = some (Thread.ended result) →
      after.service.threads[thread]? = some (Thread.ended result)) : after.Served call answer := by
  obtain ⟨thread, result, member, done, given⟩ := served
  exact ⟨thread, result, kept member, ended done, given⟩

theorem sound_initial : Sound state (initial delegation state) where
  callers found := by cases found
  service := .refl
  threads := List.nodup_nil
  begun member := by cases member
  asked member := by cases member
  calls := List.nodup_nil

/-- A new caller has nothing to deliver. -/
theorem delivers_opening (hub : Hub delegation) (index : ℕ) : hub.Delivers index ⟨delegation.opens, [], []⟩ := by
  intro me request answer earlier suffix
  cases List.suffix_nil.mp suffix

theorem Sound.of_join (sound : Sound state before) :
    Sound state ({ before with callers := before.callers ++ [⟨delegation.opens, [], []⟩] } : Hub delegation) := by
  refine ⟨?_, sound.service, sound.threads, sound.begun, ?_, sound.calls⟩
  · intro index system found
    rcases Nat.lt_trichotomy index before.callers.length with below | same | above
    · rw [List.getElem?_append_left below] at found
      exact sound.callers found
    · subst same
      rw [List.getElem?_concat_length, Option.some.injEq] at found
      subst found
      exact ⟨.refl, delivers_opening _ _⟩
    · rw [List.getElem?_eq_none (by simp; omega)] at found
      cases found
  · intro thread call member
    obtain ⟨asks, system, found, suffix⟩ := sound.asked member
    refine ⟨asks, system, ?_, suffix⟩
    rw [List.getElem?_append_left (List.getElem?_eq_some_iff.mp found).1]
    exact found

theorem Sound.of_caller (sound : Sound state before) {index : ℕ} {system after : System S A E V L}
    (found : before.callers[index]? = some system) (step : Async.Step delegation.caller system after)
    (delivered : before.Delivers index after) :
    Sound state ({ before with callers := before.callers.set index after } : Hub delegation) := by
  obtain ⟨inside, _⟩ := List.getElem?_eq_some_iff.mp found
  refine ⟨?_, sound.service, sound.threads, sound.begun, ?_, sound.calls⟩
  · intro other system found'
    by_cases same : index = other
    · subst same
      rw [List.getElem?_set_self inside, Option.some.injEq] at found'
      subst found'
      exact ⟨(sound.callers found).1.tail step, delivered⟩
    · rw [List.getElem?_set_ne same] at found'
      exact sound.callers found'
  · intro thread call member
    obtain ⟨asks, system, found', suffix⟩ := sound.asked member
    by_cases same : index = call.caller
    · subst same
      rw [found, Option.some.injEq] at found'
      subst found'
      exact ⟨asks, after, List.getElem?_set_self inside, suffix.trans (own_suffix _ step.trace_suffix)⟩
    · refine ⟨asks, system, ?_, suffix⟩
      rw [List.getElem?_set_ne same]
      exact found'

/-- What a caller was answered stays served while the service steps and the ledger grows. -/
theorem Sound.callers_later (sound : Sound state before) {service : System T B F W K} {ledger : List (ℕ × Call A L)}
    (kept : before.ledger ⊆ ledger) (step : Async.Step delegation.service before.service service) {index : ℕ}
    {system : System S A E V L} (found : before.callers[index]? = some system) :
    Async.Reachable delegation.caller delegation.opens system ∧
      ({ before with service := service, ledger := ledger } : Hub delegation).Delivers index system := by
  obtain ⟨reached, delivers⟩ := sound.callers found
  refine ⟨reached, ?_⟩
  intro me request answer earlier suffix delegated
  exact (delivers me request answer earlier suffix delegated).later kept step.ended

/-- A thread that works for a call stays the thread of this call. -/
theorem Sound.begun_later (sound : Sound state before) {service : System T B F W K}
    (step : Async.Step delegation.service before.service service) {thread : ℕ} {call : Call A L}
    (member : (thread, call) ∈ before.ledger) : thread < service.threads.length ∧
      ∃ label, delegation.task call.request = some label ∧ (thread, .started label) ∈ service.trace := by
  obtain ⟨inside, label, delegated, started⟩ := sound.begun member
  exact ⟨inside.trans_le step.length_le, label, delegated, step.trace_suffix.subset started⟩

theorem Sound.of_begin (sound : Sound state before) {call : Call A L} {system : System S A E V L}
    {next : A call.request → Program S A E V} {label : K} {service : System T B F W K}
    (found : before.callers[call.caller]? = some system)
    (waits : system.threads[call.thread]? = some (.waiting call.request next))
    (asks : own call.thread system.trace = call.history) (delegated : delegation.task call.request = some label)
    (fresh : call ∉ before.ledger.map Prod.snd) (step : Async.Step delegation.service before.service service)
    (started : (before.service.threads.length, .started label) ∈ service.trace) :
    Sound state ({ before with
      service := service, ledger := (before.service.threads.length, call) :: before.ledger } : Hub delegation) := by
  have serves := sound.service.tail step
  refine ⟨sound.callers_later (List.subset_cons_self _ _) step, serves, ?_, ?_, ?_,
    List.nodup_cons.mpr ⟨fresh, sound.calls⟩⟩
  · -- The new thread is none of the older threads of the ledger.
    refine List.nodup_cons.mpr ⟨?_, sound.threads⟩
    intro again
    obtain ⟨⟨thread, other⟩, member, same⟩ := List.mem_map.mp again
    exact absurd same (sound.begun member).1.ne
  · intro thread other member
    rcases List.mem_cons.mp member with same | older
    · cases same
      exact ⟨Async.Reachable.index_lt serves _ started, label, delegated, started⟩
    · exact sound.begun_later step older
  · intro thread other member
    rcases List.mem_cons.mp member with same | older
    · cases same
      have newest := (sound.callers found).1.head?_of_waiting waits
      rw [asks] at newest
      exact ⟨newest, system, found, by rw [asks]⟩
    · exact sound.asked older

/-- Each step keeps the ledger sound. -/
theorem Sound.step (sound : Sound state before) (step : Step before after) : Sound state after := by
  cases step with
  | join => exact sound.of_join
  | caller index found step delivered => exact sound.of_caller found step delivered
  | service step =>
      exact ⟨sound.callers_later (List.Subset.refl _) step, sound.service.tail step, sound.threads,
        sound.begun_later step, sound.asked, sound.calls⟩
  | begin call found waits asks delegated fresh step started =>
      exact sound.of_begin found waits asks delegated fresh step started

theorem Reachable.sound {hub : Hub delegation} (reached : hub.Reachable state) : Sound state hub := by
  induction reached with
  | refl => exact sound_initial
  | tail _ step ih => exact ih.step step

variable {hub : Hub delegation}

/-- Events that answer no delegated request need no service. -/
theorem Delivers.append {index : ℕ} {before after : System S A E V L} (delivers : hub.Delivers index before)
    {added : Trace A L} (grown : after.trace = added ++ before.trace)
    (plain : ∀ me request answer, (me, .answered request answer) ∈ added → delegation.task request = none) :
    hub.Delivers index after := by
  intro me request answer history suffix delegated
  obtain ⟨earlier, inside, rfl⟩ := exists_of_own_suffix suffix
  rw [grown] at inside
  have past : ∀ {moment}, moment <:+ before.trace → moment = (me, .answered request answer) :: earlier →
      hub.Served ⟨index, me, request, own me earlier⟩ answer := by
    rintro moment older rfl
    have within := own_suffix me older
    rw [own_cons_self] at within
    exact delivers me request answer _ within delegated
  rcases List.suffix_or_suffix_of_suffix inside (List.suffix_append added before.trace) with older | newer
  · exact past older rfl
  · rcases List.suffix_cons_iff.mp newer with same | ⟨between, split⟩
    · exact past List.suffix_rfl same
    · have split' : (me, .answered request answer) :: earlier =
          ((me, .answered request answer) :: between) ++ before.trace := by rw [← split]; rfl
      rw [split'] at inside
      have among := (List.suffix_append_self_iff.mp inside).subset List.mem_cons_self
      rw [plain me request answer among] at delegated
      cases delegated

/-- A caller that has received no delegated answer needs no service. -/
theorem delivers_of_plain {index : ℕ} {system : System S A E V L}
    (plain : ∀ me request answer, (me, .answered request answer) ∈ system.trace → delegation.task request = none) :
    hub.Delivers index system := by
  intro me request answer history suffix delegated
  rw [plain me request answer (mem_own.mp (suffix.subset List.mem_cons_self))] at delegated
  cases delegated

/-- A served call may be answered. -/
theorem Delivers.answered {index me : ℕ} {before after : System S A E V L} (delivers : hub.Delivers index before)
    {request : C} {answer : A request} (grown : after.trace = (me, .answered request answer) :: before.trace)
    (served : hub.Served ⟨index, me, request, own me before.trace⟩ answer) : hub.Delivers index after := by
  intro other request' answer' history suffix delegated
  obtain ⟨earlier, inside, rfl⟩ := exists_of_own_suffix suffix
  rw [grown] at inside
  rcases List.suffix_cons_iff.mp inside with newest | older
  · cases newest
    exact served
  · have within := own_suffix other older
    rw [own_cons_self] at within
    exact delivers other request' answer' _ within delegated

/-- A caller goes on while its delegated requests are served before they are answered. -/
theorem Reachable.caller_steps (reached : hub.Reachable state) {index : ℕ} {before after : System S A E V L}
    (found : hub.callers[index]? = some before)
    (steps : Relation.ReflTransGen (Async.Step delegation.caller) before after) (delivered : hub.Delivers index after) :
    ({ hub with callers := hub.callers.set index after } : Hub delegation).Reachable state := by
  induction steps with
  | refl =>
      obtain ⟨inside, same⟩ := List.getElem?_eq_some_iff.mp found
      rw [← same, List.set_getElem_self]
      exact reached
  | @tail middle after steps step ih =>
      have earlier : hub.Delivers index middle := by
        intro me request answer history suffix
        exact delivered me request answer history (suffix.trans (own_suffix me step.trace_suffix))
      obtain ⟨inside, _⟩ := List.getElem?_eq_some_iff.mp found
      have next : Step { hub with callers := hub.callers.set index middle }
          { hub with callers := (hub.callers.set index middle).set index after } :=
        .caller index (List.getElem?_set_self inside) step delivered
      rw [List.set_set] at next
      exact Relation.ReflTransGen.tail (ih earlier) next

theorem Reachable.service_steps (reached : hub.Reachable state) {after : System T B F W K}
    (steps : Relation.ReflTransGen (Async.Step delegation.service) hub.service after) :
    ({ hub with service := after } : Hub delegation).Reachable state := by
  induction steps with
  | refl => exact reached
  | @tail middle after steps step ih =>
      have next : Step { hub with service := middle } { hub with service := after } := .service step
      exact Relation.ReflTransGen.tail ih next

/-- A thread of the service in the ledger has run the task of its call, oldest event first. -/
theorem Sound.follows (sound : Sound state hub) {thread : ℕ} {call : Call A L} (member : (thread, call) ∈ hub.ledger)
    {result : Except F W} (ended : hub.service.threads[thread]? = some (.ended result)) :
    ∃ label events, delegation.task call.request = some label ∧
      own thread hub.service.trace = events.reverse ++ [.started label] ∧
      Follows (delegation.service.program label) events (.ended result) := by
  obtain ⟨_, label, delegated, started⟩ := sound.begun member
  obtain ⟨label', events, owned, follows⟩ := sound.service.follows ended
  have first : (thread, .started label') ∈ hub.service.trace := by
    rw [← mem_own, owned]
    exact List.mem_append_right _ List.mem_cons_self
  obtain rfl := sound.service.started_unique started first
  exact ⟨label, events, delegated, owned, follows⟩

/-- The ledger finds one call for each thread. -/
theorem Sound.call_unique (sound : Sound state hub) {thread : ℕ} {first second : Call A L}
    (one : (thread, first) ∈ hub.ledger) (two : (thread, second) ∈ hub.ledger) : first = second := by
  have distinct := sound.threads
  have same : ((thread, first) : ℕ × Call A L) = (thread, second) :=
    List.inj_on_of_nodup_map distinct one two rfl
  exact congrArg Prod.snd same

end Hub

section Receipts

/-- The calls of one caller with an answer of some kind, newest first. -/
def receipts (kind : Event A L → Bool) (caller : ℕ) : Trace A L → List (Call A L)
  | [] => []
  | (me, .answered request answer) :: earlier =>
      if kind (.answered request answer) then ⟨caller, me, request, own me earlier⟩ :: receipts kind caller earlier
      else receipts kind caller earlier
  | _ :: earlier => receipts kind caller earlier

variable {kind : Event A L → Bool} {caller : ℕ} {trace : Trace A L}

/-- A receipt belongs to an answer in the own history of its thread. -/
theorem answered_of_mem_receipts {call : Call A L} (member : call ∈ receipts kind caller trace) :
    call.caller = caller ∧ ∃ answer, kind (.answered call.request answer) = true ∧
      .answered call.request answer :: call.history <:+ own call.thread trace := by
  induction trace with
  | nil => cases member
  | cons pair trace ih =>
      obtain ⟨me, event⟩ := pair
      have grown := own_suffix call.thread (List.suffix_cons (me, event) trace)
      have older : call ∈ receipts kind caller trace → call.caller = caller ∧
          ∃ answer, kind (.answered call.request answer) = true ∧
            .answered call.request answer :: call.history <:+ own call.thread ((me, event) :: trace) := by
        intro inside
        obtain ⟨same, answer, isKind, suffix⟩ := ih inside
        exact ⟨same, answer, isKind, suffix.trans grown⟩
      cases event with
      | started label => exact older member
      | called request answer => exact older member
      | issued request => exact older member
      | answered request answer =>
          by_cases isKind : kind (.answered request answer) = true
          · rw [receipts, if_pos isKind] at member
            rcases List.mem_cons.mp member with rfl | inside
            · refine ⟨rfl, answer, isKind, ?_⟩
              rw [own_cons_self]
            · exact older inside
          · rw [receipts, if_neg isKind] at member
            exact older member

/-- The own history grows with each answer, so no receipt comes twice. -/
theorem nodup_receipts : (receipts kind caller trace).Nodup := by
  induction trace with
  | nil => exact List.nodup_nil
  | cons pair trace ih =>
      obtain ⟨me, event⟩ := pair
      cases event with
      | started label => exact ih
      | called request answer => exact ih
      | issued request => exact ih
      | answered request answer =>
          by_cases isKind : kind (.answered request answer) = true
          · rw [receipts, if_pos isKind]
            refine List.nodup_cons.mpr ⟨?_, ih⟩
            intro again
            obtain ⟨_, answer', _, suffix⟩ := answered_of_mem_receipts again
            exact absurd suffix.length_le (Nat.not_succ_le_self _)
          · rw [receipts, if_neg isKind]
            exact ih

theorem length_receipts (answers : ∀ event, kind event = true → ∃ request answer, event = .answered request answer) :
    (receipts kind caller trace).length = trace.countP fun pair => kind pair.2 := by
  have other : ∀ event, (∀ request answer, event ≠ .answered request answer) → ¬ kind event = true := by
    intro event different isKind
    obtain ⟨request, answer, same⟩ := answers event isKind
    exact different request answer same
  induction trace with
  | nil => rfl
  | cons pair trace ih =>
      obtain ⟨me, event⟩ := pair
      cases event with
      | started label =>
          have unkind := other (.started label) nofun
          simpa [unkind, receipts] using ih
      | called request answer =>
          have unkind := other (.called request answer) nofun
          simpa [unkind, receipts] using ih
      | issued request =>
          have unkind := other (.issued request) nofun
          simpa [unkind, receipts] using ih
      | answered request answer =>
          cases isKind : kind (.answered request answer) with
          | true => simpa [isKind, receipts] using ih
          | false => simpa [isKind, receipts] using ih

end Receipts

namespace Hub

variable {delegation : Delegation S A E V L T B F W K} {state : T} {hub : Hub delegation}

/-- The answers of some kind to all callers. -/
def count (hub : Hub delegation) (kind : Event A L → Bool) : ℕ :=
  (hub.callers.map fun system => system.trace.countP fun pair => kind pair.2).sum

/-- The receipts of all callers. -/
def receipts (hub : Hub delegation) (kind : Event A L → Bool) : List (Call A L) :=
  hub.callers.zipIdx.flatMap fun pair => Async.receipts kind pair.2 pair.1.trace

variable {kind : Event A L → Bool}

theorem length_receipts (answers : ∀ event, kind event = true → ∃ request answer, event = .answered request answer) :
    (hub.receipts kind).length = hub.count kind := by
  have lengths : ∀ (systems : List (System S A E V L)) first, ((systems.zipIdx first).flatMap fun pair =>
      Async.receipts kind pair.2 pair.1.trace).length =
        (systems.map fun system => system.trace.countP fun pair => kind pair.2).sum := by
    intro systems
    induction systems with
    | nil => exact fun _ => rfl
    | cons system systems ih =>
        intro first
        rw [List.zipIdx_cons, List.flatMap_cons, List.length_append, ih, List.map_cons, List.sum_cons,
          Async.length_receipts answers]
  exact lengths hub.callers 0

theorem mem_receipts {call : Call A L} (member : call ∈ hub.receipts kind) :
    ∃ system answer, hub.callers[call.caller]? = some system ∧ kind (.answered call.request answer) = true ∧
      .answered call.request answer :: call.history <:+ own call.thread system.trace := by
  obtain ⟨⟨system, index⟩, inside, listed⟩ := List.mem_flatMap.mp member
  obtain ⟨rfl, answer, isKind, suffix⟩ := answered_of_mem_receipts listed
  exact ⟨system, answer, List.mem_zipIdx_iff_getElem?.mp inside, isKind, suffix⟩

theorem nodup_receipts : (hub.receipts kind).Nodup := by
  apply List.nodup_flatMap.mpr
  refine ⟨fun _ _ => Async.nodup_receipts, ?_⟩
  have indices : (hub.callers.zipIdx.map Prod.snd).Nodup := by
    rw [List.zipIdx_map_snd]
    exact List.nodup_range'
  apply (List.pairwise_map.mp indices).imp
  intro first second different call one two
  exact different ((answered_of_mem_receipts one).1.symm.trans (answered_of_mem_receipts two).1)

/-- The answers of some kind are never more than the events of the service that pay for them. -/
theorem Sound.count_le (sound : Sound state hub) {pays : Event B K → Bool}
    (answers : ∀ event, kind event = true → ∃ request answer, event = .answered request answer)
    (delegated : ∀ request answer, kind (.answered request answer) = true → (delegation.task request).isSome = true)
    (paid : ∀ {thread call result answer}, (thread, call) ∈ hub.ledger →
      hub.service.threads[thread]? = some (.ended result) → delegation.gives call.request result answer →
      kind (.answered call.request answer) = true → ∃ event, (thread, event) ∈ hub.service.trace ∧ pays event = true) :
    hub.count kind ≤ hub.service.trace.countP fun pair => pays pair.2 := by
  have worker : ∀ call, ∃ thread, call ∈ hub.receipts kind → (thread, call) ∈ hub.ledger ∧
      ∃ event, (thread, event) ∈ hub.service.trace ∧ pays event = true := by
    intro call
    by_cases listed : call ∈ hub.receipts kind
    · obtain ⟨system, answer, found, isKind, suffix⟩ := mem_receipts listed
      obtain ⟨thread, result, member, ended, given⟩ :=
        (sound.callers found).2 _ _ _ _ suffix (delegated _ _ isKind)
      exact ⟨thread, fun _ => ⟨member, paid member ended given isKind⟩⟩
    · exact ⟨0, fun inside => absurd inside listed⟩
  choose thread works using worker
  have distinct : ((hub.receipts kind).map thread).Nodup := by
    refine nodup_receipts.map_on ?_
    intro first one second two same
    have firstWorks := (works first one).1
    rw [same] at firstWorks
    exact sound.call_unique firstWorks (works second two).1
  have subset : (hub.receipts kind).map thread ⊆
      (hub.service.trace.filter fun pair => pays pair.2).map Prod.fst := by
    intro other member
    obtain ⟨call, listed, rfl⟩ := List.mem_map.mp member
    obtain ⟨_, event, inside, pay⟩ := works call listed
    exact List.mem_map.mpr ⟨(thread call, event), List.mem_filter.mpr ⟨inside, pay⟩, rfl⟩
  calc hub.count kind = ((hub.receipts kind).map thread).length := by
        rw [List.length_map, length_receipts answers]
    _ ≤ ((hub.service.trace.filter fun pair => pays pair.2).map Prod.fst).length :=
        (distinct.subperm subset).length_le
    _ = hub.service.trace.countP fun pair => pays pair.2 := by
        rw [List.length_map, List.countP_eq_length_filter]

end Hub

end Async
