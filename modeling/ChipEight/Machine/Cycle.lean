/-
**Ticks.**

A machine either waits for a key, and then a tick only looks at the keys, or it runs, and then a
tick fetches the word at the counter and executes it. A fetch that reaches past memory changes
nothing. With debugging on, a running tick reports its instruction before executing it.
-/

import ChipEight.Execution

namespace ChipEight

namespace Machine

/-- The word at the counter, and the machine with its counter behind that word. -/
def fetch? (machine : Machine) : Option (Word × Machine) :=
  match machine.memory.word? machine.registers.pc.toNat with
  | none => none
  | some word => some (word, machine.mapRegisters (·.skip))

/-- Looks for a key that is down. The lowest one goes into the first register of the last word,
which is the one that began to wait, and ends the wait. -/
def pollKeys (machine : Machine) : Outcome Bool :=
  match machine.registers.firstKey? with
  | none => .done false machine
  | some key =>
    (Outcome.done true { machine with
      registers := machine.registers.set machine.control.lastWord.x (UInt8.ofNat key)
      control.settings.waiting := false }).reporting (.keyTaken key)

/-- Advances a machine by one tick. -/
def tick (machine : Machine) : Outcome Unit :=
  if machine.isWaiting then machine.pollKeys.map fun _ => ()
  else
    match machine.fetch? with
    | none => .outOfBounds machine
    | some (word, fetched) =>
      let outcome := fetched.execute word
      if machine.control.settings.debug then
        outcome.reporting (.instruction machine.control.cycles machine.registers.pc word)
      else outcome

end Machine

/-- A run of ticks: how many succeeded, and the failure that ended it. -/
structure TickRun where
  ticks : Nat
  failure : Option Failure
  machine : Machine
  log : List LogEntry

/-- Ticks up to a number of times, until one fails. -/
def Machine.runTicks : Nat → Machine → TickRun
  | 0, machine => ⟨0, none, machine, []⟩
  | count + 1, machine =>
    let outcome := machine.tick
    match outcome.answer with
    | .error failure => ⟨0, some failure, outcome.machine, outcome.log⟩
    | .ok () =>
      let rest := outcome.machine.runTicks count
      { rest with ticks := rest.ticks + 1, log := outcome.log ++ rest.log }

end ChipEight
