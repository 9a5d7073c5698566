/-
**The three kinds of ticks.**

A tick of a waiting machine looks for a key, one that can not fetch a word does nothing, and every
other one executes the word at the counter on the machine with its counter behind that word.

* `fetch?_eq_some_iff`, `fetch?_eq_none_iff`: what a fetch reads and what it moves;
* `TickKind`, with `tickKind`: the three kinds;
* `tick_waiting`, `tick_unfetched`, `tick_fetched`: what each does, and the last one by its answer,
  machine and log;
* `firstKey?_eq_none_iff`, `firstKey?_eq_some_iff`: the key that a waiting machine finds.
-/

import Mathlib.Tactic.Common
import ChipEight.Machine.Cycle
import ChipEight.Proofs.Memory

namespace ChipEight

namespace Machine

variable {machine fetched : Machine} {word : Word}

/-! ### Fetching -/

theorem fetch?_eq_some_iff :
    machine.fetch? = some (word, fetched) ↔
      machine.memory.word? machine.registers.pc.toNat = some word ∧
        fetched = machine.mapRegisters (·.skip) := by
  unfold fetch?
  cases machine.memory.word? machine.registers.pc.toNat with
  | none => simp
  | some found => simp [eq_comm]

theorem fetch?_eq_none_iff :
    machine.fetch? = none ↔ machine.memory.size ≤ machine.registers.pc.toNat + 1 := by
  rw [← Memory.word?_eq_none_iff]
  unfold fetch?
  cases machine.memory.word? machine.registers.pc.toNat with
  | none => simp
  | some found => simp

/-! ### Ticking -/

/-- **The three kinds of ticks.** -/
inductive TickKind (machine : Machine) : Prop
  | waits (waiting : machine.isWaiting = true)
  | stuck (running : machine.isWaiting = false) (unfetched : machine.fetch? = none)
  | executes (word : Word) (fetched : Machine) (running : machine.isWaiting = false)
      (found : machine.fetch? = some (word, fetched))

theorem tickKind (machine : Machine) : machine.TickKind := by
  cases waiting : machine.isWaiting with
  | true => exact .waits waiting
  | false =>
    cases found : machine.fetch? with
    | none => exact .stuck waiting found
    | some pair => exact .executes pair.1 pair.2 waiting found

theorem tick_waiting (waiting : machine.isWaiting = true) :
    machine.tick = machine.pollKeys.map fun _ => () :=
  if_pos waiting

theorem tick_unfetched (running : machine.isWaiting = false) (unfetched : machine.fetch? = none) :
    machine.tick = .outOfBounds machine := by
  unfold tick
  rw [running, unfetched]
  rfl

/-- A tick that fetches a word executes it, and reports it before if it is to. -/
theorem tick_fetched (running : machine.isWaiting = false)
    (found : machine.fetch? = some (word, fetched)) :
    machine.tick =
      if machine.control.settings.debug then
        (fetched.execute word).reporting
          (.instruction machine.control.cycles machine.registers.pc word)
      else fetched.execute word := by
  unfold tick
  rw [running, found]
  rfl

theorem tick_answer (running : machine.isWaiting = false)
    (found : machine.fetch? = some (word, fetched)) :
    machine.tick.answer = (fetched.execute word).answer := by
  rw [tick_fetched running found]
  split <;> rfl

theorem tick_machine (running : machine.isWaiting = false)
    (found : machine.fetch? = some (word, fetched)) :
    machine.tick.machine = (fetched.execute word).machine := by
  rw [tick_fetched running found]
  split <;> rfl

theorem tick_log (running : machine.isWaiting = false)
    (found : machine.fetch? = some (word, fetched)) :
    machine.tick.log =
      (if machine.control.settings.debug then
        [.instruction machine.control.cycles machine.registers.pc word] else []) ++
        (fetched.execute word).log := by
  rw [tick_fetched running found]
  split <;> rfl

end Machine

/-! ### The lowest key -/

namespace Registers

theorem firstKey?_eq_none_iff (registers : Registers) :
    registers.firstKey? = none ↔ ∀ key, registers.isDown key = false := by
  simp [firstKey?, List.find?_eq_none]

theorem firstKey?_eq_some_iff (registers : Registers) (key : Fin 16) :
    registers.firstKey? = some key ↔
      registers.isDown key = true ∧ ∀ lower < key, registers.isDown lower = false := by
  rw [firstKey?, List.find?_eq_some_iff_getElem]
  refine and_congr_right fun _ => ⟨?_, fun lowest => ?_⟩
  · rintro ⟨place, inside, rfl, before⟩ lower isLower
    rw [List.getElem_finRange] at isLower
    simpa using before lower.val isLower
  · refine ⟨key.val, by simp, by simp, fun place isLower => ?_⟩
    simpa using lowest ⟨place, Nat.lt_trans isLower key.isLt⟩ isLower

/-- If a key is down, there is a lowest one. -/
theorem exists_lowest (registers : Registers) {key : Fin 16}
    (down : registers.isDown key = true) :
    ∃ lowest, registers.isDown lowest = true ∧
      ∀ lower < lowest, registers.isDown lower = false := by
  cases found : registers.firstKey? with
  | none =>
    have up := registers.firstKey?_eq_none_iff.mp found key
    exact absurd (down.symm.trans up) (by decide)
  | some lowest => exact ⟨lowest, (registers.firstKey?_eq_some_iff lowest).mp found⟩

end Registers

namespace Machine

theorem pollKeys_none {machine : Machine} (up : machine.registers.firstKey? = none) :
    machine.pollKeys = .done false machine := by
  unfold pollKeys
  rw [up]

theorem pollKeys_some {machine : Machine} {key : Fin 16}
    (found : machine.registers.firstKey? = some key) :
    machine.pollKeys = (Outcome.done true { machine with
      registers := machine.registers.set machine.control.lastWord.x (UInt8.ofNat key)
      control.settings.waiting := false }).reporting (.keyTaken key) := by
  unfold pollKeys
  rw [found]

end Machine

end ChipEight
