import ComptoMiningPool.Async.Threads

/-
This file defines what a program owes on each path to its end, and shows that a thread that has ended has
paid it.
-/

namespace Async

variable {S C E V W L : Type} {A : C → Type}

/-- Each path to the end of the program has a due event, or its result is excused. -/
def Owes (due : Event A L → Prop) (excused : Except E V → Prop) : Program S A E V → Prop
  | .done value => excused (.ok value)
  | .failed error => excused (.error error)
  | .read next => ∀ state, Owes due excused (next state)
  | .store _ next => Owes due excused next
  | .call request next => ∀ answer, due (.called request answer) ∨ Owes due excused (next answer)
  | .await request next => ∀ answer, due (.answered request answer) ∨ Owes due excused (next answer)

/-- Each call that triggers an obligation leaves a program that owes it. The trigger sees the past of the
thread, newest first. -/
def Obliges (triggers : History A L → Prop) (due : Event A L → Prop) :
    Program S A E V → History A L → Prop
  | .done _, _ => True
  | .failed _, _ => True
  | .read next, past => ∀ state, Obliges triggers due (next state) past
  | .store _ next, past => Obliges triggers due next past
  | .call request next, past => ∀ answer,
      (triggers (.called request answer :: past) → Owes due (fun _ => False) (next answer)) ∧
        Obliges triggers due (next answer) (.called request answer :: past)
  | .await request next, past => ∀ answer,
      Obliges triggers due (next answer) (.answered request answer :: .issued request :: past)

section Owing

variable {due : Event A L → Prop} {excused : Except E V → Prop}

/-- A sequence owes what is left after the values that its first program may end with. -/
theorem Owes.bind {later : Except E W → Prop} {program : Program S A E V} {rest : V → Program S A E W}
    (owes : Owes due excused program) (values : ∀ value, excused (.ok value) → Owes due later (rest value))
    (errors : ∀ error, excused (.error error) → later (.error error)) :
    Owes due later (program.bind rest) := by
  induction program with
  | done value => exact values value owes
  | failed error => exact errors error owes
  | read next ih => exact fun state => ih state (owes state)
  | store stored next ih => exact ih owes
  | call request next ih => exact fun answer => (owes answer).imp_right (ih answer)
  | await request next ih => exact fun answer => (owes answer).imp_right (ih answer)

/-- A handler owes what is left after the errors that reach it. -/
theorem Owes.attempt {later : Except E V → Prop} {program : Program S A E V}
    {handler : E → Program S A E V} (owes : Owes due excused program)
    (values : ∀ value, excused (.ok value) → later (.ok value))
    (errors : ∀ error, excused (.error error) → Owes due later (handler error)) :
    Owes due later (program.attempt handler) := by
  induction program with
  | done value => exact values value owes
  | failed error => exact errors error owes
  | read next ih => exact fun state => ih state (owes state)
  | store stored next ih => exact ih owes
  | call request next ih => exact fun answer => (owes answer).imp_right (ih answer)
  | await request next ih => exact fun answer => (owes answer).imp_right (ih answer)

theorem Owes.joined {program : Program S A E V} {turn : C} (owes : Owes due excused program) :
    Owes due excused (program.joined turn) := by
  induction program with
  | done value => exact fun _ => .inr owes
  | failed error => exact fun _ => .inr owes
  | read next ih => exact fun state => ih state (owes state)
  | store stored next ih => exact ih owes
  | call request next ih => exact fun answer => (owes answer).imp_right (ih answer)
  | await request next ih => exact fun answer => (owes answer).imp_right (ih answer)

/-- A thread that has ended has paid what its program owed. -/
theorem Follows.paid {program : Program S A E V} {events : History A L} {result : Except E V}
    (follows : Follows program events (.ended result)) (owes : Owes due excused program) :
    (∃ event ∈ events, due event) ∨ excused result := by
  generalize ends : Thread.ended result = ended at follows
  induction follows with
  | done =>
      cases ends
      exact .inr owes
  | failed =>
      cases ends
      exact .inr owes
  | read state rest ih => exact ih (owes state) ends
  | store rest ih => exact ih owes ends
  | call answer rest ih =>
      rcases owes answer with paid | owes
      · exact .inl ⟨_, List.mem_cons_self, paid⟩
      · rcases ih owes ends with ⟨event, member, paid⟩ | excuse
        · exact .inl ⟨event, List.mem_cons_of_mem _ member, paid⟩
        · exact .inr excuse
  | waiting => cases ends
  | await answer rest ih =>
      rcases owes answer with paid | owes
      · exact .inl ⟨_, List.mem_cons_of_mem _ List.mem_cons_self, paid⟩
      · rcases ih owes ends with ⟨event, member, paid⟩ | excuse
        · exact .inl ⟨event, List.mem_cons_of_mem _ (List.mem_cons_of_mem _ member), paid⟩
        · exact .inr excuse

end Owing

section Obliging

variable {triggers : History A L → Prop} {due : Event A L → Prop} {past : History A L}

theorem Obliges.bind {program : Program S A E V} {rest : V → Program S A E W}
    (first : Obliges triggers due program past) (second : ∀ value past, Obliges triggers due (rest value) past) :
    Obliges triggers due (program.bind rest) past := by
  induction program generalizing past with
  | done value => exact second value past
  | failed error => trivial
  | read next ih => exact fun state => ih state (first state)
  | store stored next ih => exact ih first
  | call request next ih =>
      intro answer
      refine ⟨?_, ih answer (first answer).2⟩
      intro triggered
      exact ((first answer).1 triggered).bind (fun _ => False.elim) fun _ => False.elim
  | await request next ih => exact fun answer => ih answer (first answer)

theorem Obliges.attempt {program : Program S A E V} {handler : E → Program S A E V}
    (first : Obliges triggers due program past)
    (second : ∀ error past, Obliges triggers due (handler error) past) :
    Obliges triggers due (program.attempt handler) past := by
  induction program generalizing past with
  | done value => trivial
  | failed error => exact second error past
  | read next ih => exact fun state => ih state (first state)
  | store stored next ih => exact ih first
  | call request next ih =>
      intro answer
      refine ⟨?_, ih answer (first answer).2⟩
      intro triggered
      exact ((first answer).1 triggered).attempt (fun _ => False.elim) fun _ => False.elim
  | await request next ih => exact fun answer => ih answer (first answer)

theorem Obliges.joined {program : Program S A E V} {turn : C} (first : Obliges triggers due program past) :
    Obliges triggers due (program.joined turn) past := by
  induction program generalizing past with
  | done value => exact fun _ => trivial
  | failed error => exact fun _ => trivial
  | read next ih => exact fun state => ih state (first state)
  | store stored next ih => exact ih first
  | call request next ih =>
      intro answer
      exact ⟨fun triggered => ((first answer).1 triggered).joined, ih answer (first answer).2⟩
  | await request next ih => exact fun answer => ih answer (first answer)

/-- A program whose calls trigger nothing obliges to nothing. -/
theorem obliges_of_makes {plain : C → Prop} {program : Program S A E V} (makes : Makes plain program)
    (quiet : ∀ request answer past, plain request → ¬ triggers (.called request answer :: past)) :
    Obliges triggers due program past := by
  induction program generalizing past with
  | done value => trivial
  | failed error => trivial
  | read next ih => exact fun state => ih state (makes state)
  | store stored next ih => exact ih makes
  | call request next ih =>
      intro answer
      exact ⟨fun triggered => absurd triggered (quiet request answer past makes.1), ih answer (makes.2 answer)⟩
  | await request next ih => exact fun answer => ih answer (makes.2 answer)

/-- After a call that triggers the obligation a thread that has ended has paid it. -/
theorem Follows.obliged {program : Program S A E V} {events first last : History A L} {result : Except E V}
    {request : C} {answer : A request} (follows : Follows program events (.ended result))
    (obliges : Obliges triggers due program past) (split : events = first ++ .called request answer :: last)
    (triggered : triggers (.called request answer :: (first.reverse ++ past))) : ∃ event ∈ last, due event := by
  generalize ends : Thread.ended result = ended at follows
  induction follows generalizing past first with
  | done => cases first <;> cases split
  | failed => cases first <;> cases split
  | read state rest ih => exact ih (obliges state) split triggered ends
  | store rest ih => exact ih obliges split triggered ends
  | call answer rest ih =>
      cases first with
      | nil =>
          cases split
          cases ends
          exact (rest.paid ((obliges answer).1 triggered)).resolve_right id
      | cons event first =>
          cases split
          rw [List.reverse_cons, List.append_assoc] at triggered
          exact ih (obliges answer).2 rfl triggered ends
  | waiting => cases ends
  | await answer rest ih =>
      cases first with
      | nil => cases split
      | cons issued first =>
          cases first with
          | nil => cases split
          | cons event first =>
              cases split
              rw [List.reverse_cons, List.reverse_cons, List.append_assoc, List.append_assoc] at triggered
              exact ih (obliges answer) rfl triggered ends

/-- In a reachable system each thread that has ended has paid for the calls that triggered an obligation. -/
theorem Reachable.obliged {rules : Semantics S A E V L} {initial : S} {system : System S A E V L}
    (reached : Reachable rules initial system) {index : Nat} {result : Except E V}
    (ended : system.threads[index]? = some (.ended result))
    (obliges : ∀ label, Obliges triggers due (rules.program label) [.started label])
    {request : C} {answer : A request} {earlier : History A L}
    (suffix : .called request answer :: earlier <:+ own index system.trace)
    (triggered : triggers (.called request answer :: earlier)) : ∃ event, due event ∧ (index, event) ∈ system.trace := by
  obtain ⟨label, events, owned, follows⟩ := reached.follows ended
  obtain ⟨later, whole⟩ := suffix
  rw [owned] at whole
  rcases List.eq_nil_or_concat earlier with rfl | ⟨past, last, rfl⟩
  · obtain ⟨_, impossible⟩ := List.append_inj' whole rfl
    cases impossible
  · rw [List.concat_eq_append, ← List.cons_append, ← List.append_assoc] at whole
    obtain ⟨split, same⟩ := List.append_inj' whole rfl
    obtain rfl := List.singleton_inj.mp same.symm
    have order : events = past.reverse ++ .called request answer :: later.reverse := by
      rw [← List.reverse_inj, ← split]
      simp
    rw [List.concat_eq_append] at triggered
    obtain ⟨event, member, paid⟩ := follows.obliged (obliges label) order (by simpa using triggered)
    refine ⟨event, paid, mem_own.mp ?_⟩
    rw [owned, order]
    simp [List.mem_reverse.mp member]

end Obliging

end Async
