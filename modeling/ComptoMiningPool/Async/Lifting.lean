import ComptoMiningPool.Async.Program

/-
This file runs a program over one part of a larger state. Each of its calls is carried out by a program over the
whole state.
-/

namespace Async

/-- A lifting finds the part of the state and carries out the calls. -/
structure Lifting (S T : Type) {C D : Type} (A : C → Type) (B : D → Type) (E : Type) where
  view : T → S
  put : S → T → T
  carry : (request : C) → Program T B E (A request)

variable {S T C D E V W : Type} {A : C → Type} {B : D → Type}

namespace Program

def lift (lifting : Lifting S T A B E) : Program S A E V → Program T B E V
  | .done value => .done value
  | .failed error => .failed error
  | .read next => .read fun state => (next (lifting.view state)).lift lifting
  | .store stored next => .read fun state => .store (lifting.put stored state) (next.lift lifting)
  | .call request next => (lifting.carry request).bind fun answer => (next answer).lift lifting
  | .await request next => (lifting.carry request).bind fun answer => (next answer).lift lifting

theorem bind_assoc {U : Type} (program : Program S A E V) (rest : V → Program S A E W) (last : W → Program S A E U) :
    (program.bind rest).bind last = program.bind fun value => (rest value).bind last := by
  induction program with
  | done value => rfl
  | failed error => rfl
  | read next ih => exact congrArg Program.read (funext ih)
  | store stored next ih => exact congrArg (Program.store stored) ih
  | call request next ih => exact congrArg (Program.call request) (funext ih)
  | await request next ih => exact congrArg (Program.await request) (funext ih)

variable {lifting : Lifting S T A B E}

/-- A lifted sequence lifts both of its programs. -/
@[simp] theorem lift_bind (program : Program S A E V) (rest : V → Program S A E W) :
    (program.bind rest).lift lifting = (program.lift lifting).bind fun value => (rest value).lift lifting := by
  induction program with
  | done value => rfl
  | failed error => rfl
  | read next ih => exact congrArg Program.read (funext fun state => ih (lifting.view state))
  | store stored next ih => exact congrArg Program.read (funext fun state => congrArg (Program.store _) ih)
  | call request next ih =>
      rw [Program.bind, Program.lift, Program.lift, bind_assoc]
      exact congrArg _ (funext ih)
  | await request next ih =>
      rw [Program.bind, Program.lift, Program.lift, bind_assoc]
      exact congrArg _ (funext ih)

@[simp] theorem lift_ofExcept (result : Except E V) :
    (Program.ofExcept result : Program S A E V).lift lifting = .ofExcept result := by
  cases result <;> rfl

end Program

end Async
