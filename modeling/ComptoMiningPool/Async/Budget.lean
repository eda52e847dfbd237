import ComptoMiningPool.Async.Local

/-
This file bounds the requests that a program makes on each of its paths. It proves that no thread of an
interleaving exceeds the bound of its program.
-/

namespace Async

variable {S C E V W L : Type} {A : C → Type}

/-- Each path of the program makes requests of at most this cost. -/
def Spends (cost : C → ℕ) : Program S A E V → ℕ → Prop
  | .done _, _ => True
  | .failed _, _ => True
  | .read next, budget => ∀ state, Spends cost (next state) budget
  | .store _ next, budget => Spends cost next budget
  | .call request next, budget => cost request ≤ budget ∧ ∀ answer, Spends cost (next answer) (budget - cost request)
  | .await request next, budget => cost request ≤ budget ∧ ∀ answer, Spends cost (next answer) (budget - cost request)

/-- A request costs when it is made, and its answer is free. -/
def Event.cost (cost : C → ℕ) : Event A L → ℕ
  | .called request _ => cost request
  | .issued request => cost request
  | _ => 0

def spent (cost : C → ℕ) (history : History A L) : ℕ := (history.map (Event.cost cost)).sum

section Rules

variable {cost : C → ℕ} {budget : ℕ}

@[simp] theorem spent_cons (event : Event A L) (history : History A L) :
    spent cost (event :: history) = event.cost cost + spent cost history := by
  simp [spent]

theorem Makes.mono {allowed wide : C → Prop} {program : Program S A E V} (makes : Makes allowed program)
    (implies : ∀ request, allowed request → wide request) : Makes wide program := by
  induction program with
  | done value => trivial
  | failed error => trivial
  | read next ih => exact fun state => ih state (makes state)
  | store stored next ih => exact ih makes
  | call request next ih => exact ⟨implies request makes.1, fun answer => ih answer (makes.2 answer)⟩
  | await request next ih => exact ⟨implies request makes.1, fun answer => ih answer (makes.2 answer)⟩

/-- A program of free requests spends nothing. -/
theorem Makes.spends {program : Program S A E V} (makes : Makes (fun request => cost request = 0) program) :
    Spends cost program budget := by
  induction program generalizing budget with
  | done value => trivial
  | failed error => trivial
  | read next ih => exact fun state => ih state (makes state)
  | store stored next ih => exact ih makes
  | call request next ih => exact ⟨makes.1.le.trans (Nat.zero_le _), fun answer => ih answer (makes.2 answer)⟩
  | await request next ih => exact ⟨makes.1.le.trans (Nat.zero_le _), fun answer => ih answer (makes.2 answer)⟩

/-- A free program leaves the whole budget to the rest. -/
theorem Makes.bind_spends {program : Program S A E V} {rest : V → Program S A E W}
    (first : Makes (fun request => cost request = 0) program) (second : ∀ value, Spends cost (rest value) budget) :
    Spends cost (program.bind rest) budget := by
  induction program with
  | done value => exact second value
  | failed error => trivial
  | read next ih => exact fun state => ih state (first state)
  | store stored next ih => exact ih first
  | call request next ih =>
      refine ⟨first.1.le.trans (Nat.zero_le _), fun answer => ?_⟩
      rw [first.1]
      exact ih answer (first.2 answer)
  | await request next ih =>
      refine ⟨first.1.le.trans (Nat.zero_le _), fun answer => ?_⟩
      rw [first.1]
      exact ih answer (first.2 answer)

/-- A free rest keeps the program inside its budget. -/
theorem Spends.bind {program : Program S A E V} {rest : V → Program S A E W} (first : Spends cost program budget)
    (second : ∀ value, Makes (fun request => cost request = 0) (rest value)) :
    Spends cost (program.bind rest) budget := by
  induction program generalizing budget with
  | done value => exact (second value).spends
  | failed error => trivial
  | read next ih => exact fun state => ih state (first state)
  | store stored next ih => exact ih first
  | call request next ih => exact ⟨first.1, fun answer => ih answer (first.2 answer)⟩
  | await request next ih => exact ⟨first.1, fun answer => ih answer (first.2 answer)⟩

theorem Spends.attempt {program : Program S A E V} {handler : E → Program S A E V}
    (first : Spends cost program budget) (second : ∀ error, Makes (fun request => cost request = 0) (handler error)) :
    Spends cost (program.attempt handler) budget := by
  induction program generalizing budget with
  | done value => trivial
  | failed error => exact (second error).spends
  | read next ih => exact fun state => ih state (first state)
  | store stored next ih => exact ih first
  | call request next ih => exact ⟨first.1, fun answer => ih answer (first.2 answer)⟩
  | await request next ih => exact ⟨first.1, fun answer => ih answer (first.2 answer)⟩

theorem Spends.joined {program : Program S A E V} {turn : C} (first : Spends cost program budget)
    (free : cost turn = 0) : Spends cost (program.joined turn) budget := by
  induction program generalizing budget with
  | done value => exact ⟨free.le.trans (Nat.zero_le _), fun _ => trivial⟩
  | failed error => exact ⟨free.le.trans (Nat.zero_le _), fun _ => trivial⟩
  | read next ih => exact fun state => ih state (first state)
  | store stored next ih => exact ih first
  | call request next ih => exact ⟨first.1, fun answer => ih answer (first.2 answer)⟩
  | await request next ih => exact ⟨first.1, fun answer => ih answer (first.2 answer)⟩

/-- The event still fits the budget after the history. -/
def Affords (cost : C → ℕ) (budget : ℕ) (history : History A L) (event : Event A L) : Prop :=
  spent cost (event :: history) ≤ budget

/-- A program inside the rest of its budget never exceeds the whole. -/
theorem localWp_of_spends {answers : (request : C) → A request → Prop} {whole : ℕ}
    {program : Program S A E V} {history : History A L} (spends : Spends cost program budget)
    (inside : spent cost history + budget ≤ whole) :
    localWp answers (Affords cost whole) program (fun _ _ => True) history := by
  induction program generalizing budget history with
  | done value => trivial
  | failed error => trivial
  | read next ih => exact fun state => ih state (spends state) inside
  | store stored next ih => exact ih spends inside
  | call request next ih =>
      intro answer _
      have cheaper := spends.1
      have after : spent cost (.called request answer :: history) = cost request + spent cost history := spent_cons _ _
      refine ⟨?_, ih answer (spends.2 answer) ?_⟩
      · rw [Affords, after]
        omega
      · rw [after]
        omega
  | await request next ih =>
      have cheaper := spends.1
      have made : spent cost (.issued request :: history) = cost request + spent cost history := spent_cons _ _
      refine ⟨?_, ?_⟩
      · rw [Affords, made]
        omega
      · intro answer _
        have after : spent cost (.answered request answer :: .issued request :: history) =
            0 + spent cost (.issued request :: history) := spent_cons _ _
        refine ⟨?_, ih answer (spends.2 answer) ?_⟩
        · rw [Affords, after, made]
          omega
        · rw [after, made]
          omega

end Rules

section Systems

variable {rules : Semantics S A E V L} {initial : S} {cost : C → ℕ} {budget : ℕ}

/-- No thread of an interleaving spends more than the budget of the programs. -/
theorem Reachable.affords (spends : ∀ label, Spends cost (rules.program label) budget) {system : System S A E V L}
    (reached : Reachable rules initial system) :
    Accepted (fun trace me event => Affords cost budget (own me trace) event) system.trace := by
  have starts : ∀ label, Affords cost budget ([] : History A L) (.started label) ∧
      localWp (fun _ _ => True) (Affords cost budget) (rules.program label) (fun _ _ => True) [.started label] := by
    intro label
    refine ⟨Nat.zero_le _, localWp_of_spends (spends label) ?_⟩
    exact (Nat.zero_add budget).le
  exact reached.locally_accepted (fun _ => trivial) starts

theorem spent_pos_of_mem {event : Event A L} {history : History A L} (member : event ∈ history)
    (costs : 0 < event.cost cost) : 0 < spent cost history :=
  lt_of_lt_of_le costs (List.le_sum_of_mem (List.mem_map_of_mem member))

/-- The own history of a thread stays inside the budget. -/
theorem Reachable.spent_le (spends : ∀ label, Spends cost (rules.program label) budget) {system : System S A E V L}
    (reached : Reachable rules initial system) (me : ℕ) : spent cost (own me system.trace) ≤ budget := by
  cases owned : own me system.trace with
  | nil => exact Nat.zero_le _
  | cons event past =>
      have suffix : event :: past <:+ own me system.trace := by rw [owned]
      obtain ⟨earlier, inside, same⟩ := exists_of_own_suffix suffix
      have affords : Affords cost budget (own me earlier) event := reached.affords spends me event earlier inside
      rwa [same] at affords

/-- A thread with a budget of one request asks once. -/
theorem Reachable.asked_once (spends : ∀ label, Spends cost (rules.program label) 1) {system : System S A E V L}
    (reached : Reachable rules initial system) {me : ℕ} {first second : Event A L} {before after : History A L}
    (one : first :: before <:+ own me system.trace) (two : second :: after <:+ own me system.trace)
    (firstCosts : 0 < first.cost cost) (secondCosts : 0 < second.cost cost) :
    first :: before = second :: after := by
  have alone : ∀ {earlier later : Event A L} {shorter longer : History A L}, 0 < earlier.cost cost →
      0 < later.cost cost → later :: longer <:+ own me system.trace → ¬ earlier :: shorter <:+ longer := by
    intro earlier later shorter longer earlierCosts laterCosts inside suffix
    have paid : 0 < spent cost longer := spent_pos_of_mem (suffix.subset List.mem_cons_self) earlierCosts
    have whole : spent cost (later :: longer) ≤ spent cost (own me system.trace) :=
      (inside.sublist.map _).sum_le_sum fun _ _ => Nat.zero_le _
    have bounded := reached.spent_le spends me
    rw [spent_cons] at whole
    omega
  rcases List.suffix_or_suffix_of_suffix one two with inside | inside
  · rcases List.suffix_cons_iff.mp inside with same | older
    · exact same
    · exact absurd older (alone firstCosts secondCosts two)
  · rcases List.suffix_cons_iff.mp inside with same | older
    · exact same.symm
    · exact absurd older (alone secondCosts firstCosts one)

/-- The threads of the events that cost, newest first. -/
def spenders (cost : C → ℕ) (trace : Trace A L) : List ℕ :=
  (trace.filter fun pair => 0 < pair.2.cost cost).map Prod.fst

theorem mem_spenders {me : ℕ} {trace : Trace A L} :
    me ∈ spenders cost trace ↔ ∃ event, (me, event) ∈ trace ∧ 0 < event.cost cost := by
  simp [spenders]

/-- A budget of one request gives each event that costs a thread of its own. -/
theorem Reachable.spenders_nodup (spends : ∀ label, Spends cost (rules.program label) 1)
    {system : System S A E V L} (reached : Reachable rules initial system) : (spenders cost system.trace).Nodup := by
  have affords := reached.affords spends
  generalize system.trace = trace at affords
  induction trace with
  | nil => exact List.nodup_nil
  | cons pair trace ih =>
      obtain ⟨me, event⟩ := pair
      obtain ⟨newest, older⟩ := accepted_cons.mp affords
      by_cases costs : 0 < event.cost cost
      · have listed : spenders cost ((me, event) :: trace) = me :: spenders cost trace := by
          simp [spenders, costs]
        rw [listed]
        refine List.nodup_cons.mpr ⟨fun member => ?_, ih older⟩
        obtain ⟨other, inside, paid⟩ := mem_spenders.mp member
        have before := spent_pos_of_mem (mem_own.mpr inside) paid
        rw [Affords, spent_cons] at newest
        omega
      · have listed : spenders cost ((me, event) :: trace) = spenders cost trace := by
          simp [spenders, costs]
        rw [listed]
        exact ih older

end Systems

end Async
