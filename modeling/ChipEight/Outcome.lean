/-
**Outcomes.**

An operation on a machine answers something or fails. Either way it leaves a machine behind, which
holds everything that was done before a failure, and a few log entries. A success and a fault fix the
answer and the machine of their outcome.
-/

import ChipEight.Log
import ChipEight.Machine.Basic

namespace ChipEight

/-- What an operation answered, the machine that it left, and what it reported. -/
structure Outcome (α : Type) where
  answer : Except Failure α
  machine : Machine
  log : List LogEntry

namespace Outcome

variable {α β : Type}

/-- An operation that succeeded. -/
def done (value : α) (machine : Machine) : Outcome α :=
  ⟨.ok value, machine, []⟩

@[simp]
theorem done_answer (value : α) (machine : Machine) : (done value machine).answer = .ok value := rfl

@[simp]
theorem done_machine (value : α) (machine : Machine) : (done value machine).machine = machine := rfl

/-- An operation that reached out of bounds. -/
def outOfBounds (machine : Machine) : Outcome α :=
  ⟨.error .outOfBounds, machine, []⟩

@[simp]
theorem outOfBounds_answer (machine : Machine) :
    (outOfBounds machine : Outcome α).answer = .error .outOfBounds := rfl

@[simp]
theorem outOfBounds_machine (machine : Machine) :
    (outOfBounds machine : Outcome α).machine = machine := rfl

/-- What succeeds under a condition and goes out of bounds otherwise. -/
theorem fault_of_ite {outcome : Outcome α} {failure : Failure}
    (failed : outcome.answer = .error failure) {condition : Prop} [Decidable condition] {value : α}
    {left right : Machine}
    (split : outcome = if condition then done value left else outOfBounds right) :
    ¬ condition ∧ failure = .outOfBounds ∧ outcome = outOfBounds right := by
  by_cases holds : condition
  · rw [split, if_pos holds] at failed
    cases failed
  · rw [split, if_neg holds] at failed ⊢
    cases failed
    exact ⟨holds, rfl, rfl⟩

/-- An operation that was refused. -/
def refused (reason : Refusal) (machine : Machine) : Outcome α :=
  ⟨.error (.refused reason), machine, []⟩

/-- Puts an entry in front of the log. -/
def reporting (entry : LogEntry) (outcome : Outcome α) : Outcome α :=
  { outcome with log := entry :: outcome.log }

/-- Changes the answer. -/
def map (change : α → β) (outcome : Outcome α) : Outcome β :=
  ⟨outcome.answer.map change, outcome.machine, outcome.log⟩

end Outcome

end ChipEight
