/-
**Sessions.**

The machine after a list of operations, and how a fact about one operation becomes a fact about all
sessions.

* `Machine.after`, with `after_append`: the machine that operations leave;
* `Machine.Quiet`: the sessions in which everything succeeds;
* `Machine.after_invariant`: what every allowed operation keeps, every session of them keeps;
* `Operation.execution?`: the word that an operation executes. `perform_execution` reduces a tick
  that executes a word to the execution, and so does `perform_executedWord` without naming the
  machine that fetched it;
* `Machine.executedWords`: the words that a session executes.
-/

import ChipEight.Operation
import ChipEight.Proofs.Execution.Tick

namespace ChipEight

namespace Machine

/-- The machine that operations leave, failures included. -/
def after (machine : Machine) (operations : List Operation) : Machine :=
  (machine.performAll operations).machine

@[simp]
theorem after_nil (machine : Machine) : machine.after [] = machine := rfl

@[simp]
theorem after_cons (machine : Machine) (operation : Operation) (rest : List Operation) :
    machine.after (operation :: rest) = (operation.perform machine).machine.after rest := rfl

theorem after_append (machine : Machine) (first second : List Operation) :
    machine.after (first ++ second) = (machine.after first).after second := by
  induction first generalizing machine with
  | nil => rfl
  | cons operation rest ih => exact ih (operation.perform machine).machine

theorem after_concat (machine : Machine) (operations : List Operation) (last : Operation) :
    machine.after (operations ++ [last]) = (last.perform (machine.after operations)).machine := by
  rw [after_append, after_cons, after_nil]

theorem answers_append (machine : Machine) (first second : List Operation) :
    (machine.performAll (first ++ second)).answers =
      (machine.performAll first).answers ++ ((machine.after first).performAll second).answers := by
  induction first generalizing machine with
  | nil => rfl
  | cons operation rest ih => exact congrArg (_ :: ·) (ih (operation.perform machine).machine)

/-! ### Sessions without failures -/

/-- Whether operations all succeed and report nothing. -/
def Quiet (machine : Machine) (operations : List Operation) : Prop :=
  (machine.performAll operations).answers = operations.map fun _ => (.ok .done, [])

theorem Quiet.append {machine : Machine} {first second : List Operation}
    (quiet : machine.Quiet first) (behind : (machine.after first).Quiet second) :
    machine.Quiet (first ++ second) := by
  unfold Quiet
  rw [answers_append, quiet, behind, List.map_append]

/-- A word that succeeds, as a session. -/
theorem quiet_execute {machine left : Machine} {word : Word}
    (executed : machine.execute word = .done () left) :
    machine.Quiet [.execute word] ∧ machine.after [.execute word] = left := by
  have performed : Operation.perform machine (.execute word) = .done .done left := by
    show (machine.execute word).plain = _
    rw [executed]
    rfl
  constructor
  · unfold Quiet
    rw [performAll, performed]
    rfl
  · rw [after_cons, performed]
    rfl

/-! ### Invariants -/

/-- **What every allowed operation keeps, every session of them keeps.** -/
theorem after_invariant {P : Machine → Prop} {allowed : Operation → Prop}
    (step : ∀ machine operation, allowed operation → P machine →
      P (operation.perform machine).machine)
    {machine : Machine} (start : P machine) {operations : List Operation}
    (all : ∀ operation ∈ operations, allowed operation) : P (machine.after operations) := by
  induction operations generalizing machine with
  | nil => exact start
  | cons operation rest ih =>
    have next := step machine operation (all operation List.mem_cons_self) start
    exact ih next fun other member => all other (List.mem_cons_of_mem _ member)

end Machine

namespace Operation

/-- The word that an operation executes, and the machine that it executes it on: a tick that
fetches a word does so with the counter behind that word. -/
def execution? (machine : Machine) : Operation → Option (Word × Machine)
  | execute word => some (word, machine)
  | tick => if machine.isWaiting then none else machine.fetch?
  | _ => none

/-- The word that an operation executes, if there is one. -/
def executedWord (machine : Machine) (operation : Operation) : List Word :=
  ((operation.execution? machine).map Prod.fst).toList

variable {machine executing : Machine} {operation : Operation} {word : Word}

theorem executedWord_of (executes : operation.execution? machine = some (word, executing)) :
    operation.executedWord machine = [word] := by
  unfold executedWord
  rw [executes]
  rfl

theorem mem_executedWord_iff :
    word ∈ operation.executedWord machine ↔
      ∃ executing, operation.execution? machine = some (word, executing) := by
  simp [executedWord]

theorem mem_executedWord_of (executes : operation.execution? machine = some (word, executing)) :
    word ∈ operation.executedWord machine :=
  mem_executedWord_iff.mpr ⟨executing, executes⟩

theorem execution_tick_iff :
    execution? machine tick = some (word, executing) ↔
      machine.isWaiting = false ∧ machine.fetch? = some (word, executing) := by
  show (if machine.isWaiting = true then none else machine.fetch?) = _ ↔ _
  cases machine.isWaiting <;> simp

/-- An operation that executes a word does nothing else. -/
theorem perform_execution (executes : operation.execution? machine = some (word, executing)) :
    (operation.perform machine).machine = (executing.execute word).machine ∧
      (operation.perform machine).answer =
        (executing.execute word).answer.map fun _ => Answer.done := by
  cases operation with
  | execute other =>
    cases executes
    exact ⟨rfl, rfl⟩
  | tick =>
    obtain ⟨running, found⟩ := execution_tick_iff.mp executes
    refine ⟨Machine.tick_machine running found, ?_⟩
    show machine.tick.answer.map _ = _
    rw [Machine.tick_answer running found]
  | _ => cases executes

/-- Fetching moves the counter only. -/
theorem execution_machine (executes : operation.execution? machine = some (word, executing)) :
    executing = machine.mapRegisters fun registers =>
      { registers with pc := executing.registers.pc } := by
  cases operation with
  | execute other =>
    cases executes
    rfl
  | tick =>
    obtain ⟨-, found⟩ := execution_tick_iff.mp executes
    obtain ⟨-, rfl⟩ := Machine.fetch?_eq_some_iff.mp found
    rfl
  | _ => cases executes

theorem execution_registers (executes : operation.execution? machine = some (word, executing)) :
    executing.registers = { machine.registers with pc := executing.registers.pc } :=
  congrArg (·.registers) (execution_machine executes)

/-- **An operation that executes a word** does what executing it does, with some counter. -/
theorem perform_executedWord (executes : operation.executedWord machine = [word]) :
    ∃ pc, let executing := machine.mapRegisters fun registers => { registers with pc }
      (operation.perform machine).machine = (executing.execute word).machine ∧
        (operation.perform machine).answer =
          (executing.execute word).answer.map fun _ => Answer.done := by
  obtain ⟨executing, found⟩ := mem_executedWord_iff.mp (executes ▸ List.mem_singleton_self word)
  refine ⟨executing.registers.pc, ?_⟩
  rw [← execution_machine found]
  exact perform_execution found

end Operation

namespace Machine

/-- The words that a session executes, whatever comes of them. -/
def executedWords (machine : Machine) : List Operation → List Word
  | [] => []
  | operation :: rest =>
    operation.executedWord machine ++ (operation.perform machine).machine.executedWords rest

theorem length_executedWords_le (machine : Machine) (operations : List Operation) :
    (machine.executedWords operations).length ≤ operations.length := by
  induction operations generalizing machine with
  | nil => exact Nat.le_refl 0
  | cons operation rest ih =>
    have behind := ih (operation.perform machine).machine
    have one : (operation.executedWord machine).length ≤ 1 := by
      unfold Operation.executedWord
      cases operation.execution? machine <;> simp
    rw [executedWords, List.length_append, List.length_cons]
    omega

/-- If a session executes as many words as it has operations, each operation executes one. -/
theorem executedWords_cons {machine : Machine} {operation : Operation} {rest : List Operation}
    {word : Word} {words : List Word} (length : words.length = rest.length)
    (executed : machine.executedWords (operation :: rest) = word :: words) :
    operation.executedWord machine = [word] ∧
      (operation.perform machine).machine.executedWords rest = words := by
  have short := (operation.perform machine).machine.length_executedWords_le rest
  rw [executedWords] at executed
  cases executes : operation.execution? machine with
  | none =>
    -- the rest would have to execute one word more than it has operations
    rw [show operation.executedWord machine = [] by rw [Operation.executedWord, executes]; rfl,
      List.nil_append] at executed
    rw [executed, List.length_cons] at short
    omega
  | some pair =>
    rw [Operation.executedWord_of executes] at executed ⊢
    obtain ⟨rfl, behind⟩ := List.cons_eq_cons.mp executed
    exact ⟨rfl, behind⟩

end Machine

end ChipEight
