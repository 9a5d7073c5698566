/-
**Adjustments that ticks and host calls overlook.**

A tick that executes a word overlooks what the word overlooks, and looks at the keys besides if the
machine waits for one. It also reports the word if the machine is debugged, which no adjustment of the
debugging escapes. The other calls of a host overlook an adjustment unless they make one themselves:

* `fetch?_adjust`, `execution_adjust`: the word that is fetched and executed is the same;
* `tick_adjust`: ticks, with other adjustments than of the debugging;
* `hostCall_adjust`: calls other than ticks and resets, with adjustments of what no host calls for.
-/

import ChipEight.Proofs.Instruction.Adjustment
import ChipEight.Proofs.Session.HostCall

namespace ChipEight.Machine

variable {machine fetched executing : Machine} {adjustment : Adjustment} {operation : Operation}
  {word : Word}

/-! ### Ticks -/

theorem isWaiting_adjust (machine : Machine) (adjustment : Adjustment) :
    (machine.adjust adjustment).isWaiting = machine.isWaiting := by
  cases adjustment <;> rfl

theorem fetch?_adjust (adjustment : Adjustment) (found : machine.fetch? = some (word, fetched)) :
    (machine.adjust adjustment).fetch? = some (word, fetched.adjust adjustment) := by
  obtain ⟨read, rfl⟩ := fetch?_eq_some_iff.mp found
  refine fetch?_eq_some_iff.mpr ⟨?_, ?_⟩
  · cases adjustment <;> exact read
  · cases adjustment <;> rfl

theorem unfetched_adjust (adjustment : Adjustment) (unfetched : machine.fetch? = none) :
    (machine.adjust adjustment).fetch? = none := by
  rw [fetch?_eq_none_iff] at unfetched ⊢
  cases adjustment <;> exact unfetched

/-- Looking for a key is no matter of an adjustment, unless the keys were adjusted. -/
theorem pollKeys_adjust (machine : Machine) (adjustment : Adjustment)
    (noKeys : ∀ keys, adjustment ≠ .keys keys) :
    (machine.adjust adjustment).pollKeys = machine.pollKeys.adjust adjustment := by
  have same : (machine.adjust adjustment).registers.firstKey? = machine.registers.firstKey? := by
    cases adjustment with
    | keys keys => exact absurd rfl (noKeys keys)
    | _ => rfl
  cases found : machine.registers.firstKey? with
  | none =>
    rw [pollKeys_none found, pollKeys_none (same.trans found)]
    rfl
  | some key =>
    rw [pollKeys_some found, pollKeys_some (same.trans found)]
    cases adjustment <;> rfl

/-- A fetched word overlooks what it overlooked before the fetch. -/
theorem execute_fetched_adjust (found : machine.fetch? = some (word, fetched))
    (overlooks : word.Overlooks machine.registers adjustment) :
    (fetched.adjust adjustment).execute word = (fetched.execute word).adjust adjustment := by
  obtain ⟨-, rfl⟩ := fetch?_eq_some_iff.mp found
  exact execute_adjust overlooks

/-- An adjustment does not change which word an operation executes. -/
theorem execution_adjust (adjustment : Adjustment)
    (executes : operation.execution? machine = some (word, executing)) :
    operation.execution? (machine.adjust adjustment) = some (word, executing.adjust adjustment) := by
  cases operation with
  | execute other =>
    cases executes
    rfl
  | tick =>
    obtain ⟨running, found⟩ := Operation.execution_tick_iff.mp executes
    exact Operation.execution_tick_iff.mpr
      ⟨(isWaiting_adjust machine adjustment).trans running, fetch?_adjust adjustment found⟩
  | _ => cases executes

/-- **A tick overlooks an adjustment** other than of the debugging, if the word that it executes does
and if it does not look for a key that was adjusted. -/
theorem tick_adjust (noDebugging : ∀ debug, adjustment ≠ .debugging debug)
    (noPoll : machine.isWaiting = true → ∀ keys, adjustment ≠ .keys keys)
    (overlooks : ∀ word ∈ Operation.tick.executedWord machine,
      word.Overlooks machine.registers adjustment) :
    (machine.adjust adjustment).tick = machine.tick.adjust adjustment := by
  have same := isWaiting_adjust machine adjustment
  cases machine.tickKind with
  | waits waiting =>
    rw [tick_waiting waiting, tick_waiting (same.trans waiting),
      pollKeys_adjust machine adjustment (noPoll waiting)]
    rfl
  | stuck running unfetched =>
    rw [tick_unfetched running unfetched,
      tick_unfetched (same.trans running) (unfetched_adjust adjustment unfetched)]
    rfl
  | executes word fetched running found =>
    have executes := Operation.execution_tick_iff.mpr ⟨running, found⟩
    rw [tick_fetched running found,
      tick_fetched (same.trans running) (fetch?_adjust adjustment found),
      execute_fetched_adjust found (overlooks word (Operation.mem_executedWord_of executes))]
    cases adjustment with
    | debugging debug => exact absurd rfl (noDebugging debug)
    | _ => exact ite_adjust rfl rfl

/-! ### Loads -/

theorem memory_adjust (machine : Machine) (adjustment : Adjustment) :
    (machine.adjust adjustment).memory = machine.memory := by
  cases adjustment <;> rfl

theorem loadProgram_adjust (machine : Machine) (program : Array UInt8) :
    (machine.adjust adjustment).loadProgram program =
      (machine.loadProgram program).adjust adjustment := by
  unfold loadProgram
  rw [memory_adjust]
  cases machine.memory.load .program program with
  | error failure => rfl
  | ok loaded =>
    simp only
    cases (loaded.clearFrom (Region.program.start + program.size)).load .charset Font.bytes with
    | error failure => cases adjustment <;> rfl
    | ok memory => cases adjustment <;> rfl

theorem loadRegion_adjust (machine : Machine) (region : Region) (payload : Array UInt8) :
    (machine.adjust adjustment).loadRegion region payload =
      (machine.loadRegion region payload).adjust adjustment := by
  unfold loadRegion
  rw [memory_adjust]
  cases machine.memory.load region payload with
  | error failure => rfl
  | ok memory => cases adjustment <;> rfl

/-! ### Keys and registers -/

theorem setKey_adjust (machine : Machine) (noKeys : ∀ keys, adjustment ≠ .keys keys) (key : Nat)
    (down : Bool) :
    (machine.adjust adjustment).setKey key down = (machine.setKey key down).adjust adjustment := by
  unfold setKey
  by_cases inside : key < 16
  · rw [dif_pos inside, dif_pos inside]
    cases adjustment with
    | keys keys => exact absurd rfl (noKeys keys)
    | _ => rfl
  · rw [dif_neg inside, dif_neg inside]
    rfl

theorem setRegister_adjust (machine : Machine) (register : Nat) (value : UInt8) :
    (machine.adjust adjustment).setRegister register value =
      (machine.setRegister register value).adjust adjustment := by
  unfold setRegister
  by_cases inside : register < 16
  · rw [dif_pos inside, dif_pos inside]
    cases adjustment <;> rfl
  · rw [dif_neg inside, dif_neg inside]
    rfl

/-- **The calls of a host overlook an adjustment** of what no host calls for. -/
theorem hostCall_adjust (machine : Machine) (adjustment : Adjustment)
    (noTimers : ∀ delay sound, adjustment ≠ .timers delay sound)
    (noKeys : ∀ keys, adjustment ≠ .keys keys) (call : operation.isOngoingCall = true)
    (noTick : operation ≠ .tick) :
    operation.perform (machine.adjust adjustment) =
      (operation.perform machine).adjust adjustment := by
  cases operation with
  | tick => exact absurd rfl noTick
  | loadProgram program => exact congrArg Outcome.plain (loadProgram_adjust machine program)
  | loadFont font => exact congrArg Outcome.plain (loadRegion_adjust machine .charset font)
  | press key => exact congrArg Outcome.truth (setKey_adjust machine noKeys key true)
  | release key => exact congrArg Outcome.truth (setKey_adjust machine noKeys key false)
  | setRegister register value =>
    exact congrArg Outcome.plain (setRegister_adjust machine register value)
  | tickTimers =>
    cases adjustment with
    | timers delay sound => exact absurd rfl (noTimers delay sound)
    | _ => rfl
  | _ => cases call

end ChipEight.Machine
