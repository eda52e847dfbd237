import Mathlib.Tactic

/-
This file defines asynchronous programs over shared state and their sequential runs.
-/

namespace Async

/-- A program reads and writes shared state, calls its environment, and suspends at each await. -/
inductive Program (S : Type) {C : Type} (A : C → Type) (E V : Type) where
  | done (value : V)
  | failed (error : E)
  | read (next : S → Program S A E V)
  | store (state : S) (next : Program S A E V)
  | call (request : C) (next : A request → Program S A E V)
  | await (request : C) (next : A request → Program S A E V)

/-- An event records the start of a program, a synchronous call, or the two ends of an await. -/
inductive Event {C : Type} (A : C → Type) (L : Type) where
  | started (label : L)
  | called (request : C) (answer : A request)
  | issued (request : C)
  | answered (request : C) (answer : A request)

/-- The newest event of a history comes first. -/
abbrev History {C : Type} (A : C → Type) (L : Type) := List (Event A L)

namespace Program

variable {S C E V W L : Type} {A : C → Type}

def bind : Program S A E V → (V → Program S A E W) → Program S A E W
  | .done value, rest => rest value
  | .failed error, _ => .failed error
  | .read next, rest => .read fun state => (next state).bind rest
  | .store state next, rest => .store state (next.bind rest)
  | .call request next, rest => .call request fun answer => (next answer).bind rest
  | .await request next, rest => .await request fun answer => (next answer).bind rest

/-- The handler receives each error of the program. -/
def attempt : Program S A E V → (E → Program S A E V) → Program S A E V
  | .done value, _ => .done value
  | .failed error, handler => handler error
  | .read next, handler => .read fun state => (next state).attempt handler
  | .store state next, handler => .store state (next.attempt handler)
  | .call request next, handler => .call request fun answer => (next answer).attempt handler
  | .await request next, handler => .await request fun answer => (next answer).attempt handler

/-- Awaiting an asynchronous function gives up the thread once more after the function ends. -/
def joined (turn : C) : Program S A E V → Program S A E V
  | .done value => .await turn fun _ => .done value
  | .failed error => .await turn fun _ => .failed error
  | .read next => .read fun state => (next state).joined turn
  | .store state next => .store state (next.joined turn)
  | .call request next => .call request fun answer => (next answer).joined turn
  | .await request next => .await request fun answer => (next answer).joined turn

instance : Monad (Program S A E) where
  pure := .done
  bind := bind

def load : Program S A E S := .read .done

def modify (update : S → S) : Program S A E Unit :=
  .read fun state => .store (update state) (.done ())

def perform (request : C) : Program S A E (A request) := .call request .done

def awaiting (request : C) : Program S A E (A request) := .await request .done

def ofExcept : Except E V → Program S A E V
  | .ok value => .done value
  | .error error => .failed error

@[simp] theorem pure_eq (value : V) : (pure value : Program S A E V) = .done value := rfl

@[simp] theorem bind_eq (program : Program S A E V) (rest : V → Program S A E W) :
    program >>= rest = program.bind rest := rfl

/-- A finished run keeps the result, the last state, and the whole history. -/
structure Run (S : Type) {C : Type} (A : C → Type) (L E V : Type) where
  result : Except E V
  state : S
  history : History A L

/-- A sequential run takes every answer from an environment that sees the history. -/
def run (environment : History A L → (request : C) → A request) :
    Program S A E V → S → History A L → Run S A L E V
  | .done value, state, history => ⟨.ok value, state, history⟩
  | .failed error, state, history => ⟨.error error, state, history⟩
  | .read next, state, history => (next state).run environment state history
  | .store state next, _, history => next.run environment state history
  | .call request next, state, history =>
      let answer := environment history request
      (next answer).run environment state (.called request answer :: history)
  | .await request next, state, history =>
      let answer := environment (.issued request :: history) request
      (next answer).run environment state (.answered request answer :: .issued request :: history)

section Runs

variable (environment : History A L → (request : C) → A request)

@[simp] theorem run_ofExcept (result : Except E V) (state : S) (history : History A L) :
    (ofExcept result : Program S A E V).run environment state history = ⟨result, state, history⟩ := by
  cases result <;> rfl

/-- A sequence runs its second program from the end of the first. -/
theorem run_bind (program : Program S A E V) (rest : V → Program S A E W) (state : S)
    (history : History A L) :
    (program.bind rest).run environment state history =
      match (program.run environment state history).result with
      | .ok value => (rest value).run environment (program.run environment state history).state
          (program.run environment state history).history
      | .error error => ⟨.error error, (program.run environment state history).state,
          (program.run environment state history).history⟩ := by
  induction program generalizing state history with
  | done value => rfl
  | failed error => rfl
  | read next ih => exact ih state state history
  | store next program ih => exact ih next history
  | call request next ih => exact ih _ state _
  | await request next ih => exact ih _ state _

/-- A caught error continues in the handler from the state that it left. -/
theorem run_attempt (program : Program S A E V) (handler : E → Program S A E V) (state : S)
    (history : History A L) :
    (program.attempt handler).run environment state history =
      match (program.run environment state history).result with
      | .ok value => ⟨.ok value, (program.run environment state history).state,
          (program.run environment state history).history⟩
      | .error error => (handler error).run environment
          (program.run environment state history).state
          (program.run environment state history).history := by
  induction program generalizing state history with
  | done value => rfl
  | failed error => rfl
  | read next ih => exact ih state state history
  | store next program ih => exact ih next history
  | call request next ih => exact ih _ state _
  | await request next ih => exact ih _ state _

/-- A join adds one turn to the history and changes nothing else. -/
theorem run_joined (turn : C) (program : Program S A E V) (state : S) (history : History A L) :
    (program.joined turn).run environment state history =
      let inner := program.run environment state history
      ⟨inner.result, inner.state, .answered turn (environment (.issued turn :: inner.history) turn) ::
        .issued turn :: inner.history⟩ := by
  induction program generalizing state history with
  | done value => rfl
  | failed error => rfl
  | read next ih => exact ih state state history
  | store next program ih => exact ih next history
  | call request next ih => exact ih _ state _
  | await request next ih => exact ih _ state _

/-- Each value that a sequential run returns has the property. -/
def Returns (L : Type) (property : V → Prop) (program : Program S A E V) : Prop :=
  ∀ (environment : History A L → (request : C) → A request) (state : S) (history : History A L) value,
    (program.run environment state history).result = .ok value → property value

theorem returns_done {property : V → Prop} {value : V} (holds : property value) :
    Returns L property (.done value : Program S A E V) := by
  intro environment state history other returned
  obtain rfl := Except.ok.inj returned
  exact holds

/-- A sequence returns what its second program returns after a value of the first. -/
theorem Returns.bind {first : V → Prop} {property : W → Prop} {program : Program S A E V}
    {rest : V → Program S A E W} (returns : Returns L first program)
    (continues : ∀ value, first value → Returns L property (rest value)) :
    Returns L property (program.bind rest) := by
  intro environment state history value returned
  rw [run_bind] at returned
  cases ended : (program.run environment state history).result with
  | error error =>
      rw [ended] at returned
      cases returned
  | ok middle =>
      rw [ended] at returned
      exact continues middle (returns environment state history middle ended) _ _ _ value returned

end Runs

end Program

end Async
