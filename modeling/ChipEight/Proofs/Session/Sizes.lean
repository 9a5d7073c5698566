/-
**The sizes of memory and screen.**

No operation changes how many bytes memory has or how many pixels the screen has, whatever the
numbers are and however the operation ends (`Operation.perform_sizes`). Only a restored part can bring
another size, so a machine that is reached from a new one without such a part has the standard sizes
(`Reachable.sizes`).
-/

import ChipEight.Proofs.Execution.Frame
import ChipEight.Proofs.Session.HostCall
import ChipEight.Snapshot.Machine

namespace ChipEight

namespace Machine

/-- The number of bytes in memory and of pixels on the screen. -/
def sizes (machine : Machine) : Nat × Nat :=
  (machine.memory.size, machine.screen.size)

/-- The sizes of a new machine. -/
def standardSizes : Nat × Nat :=
  (Memory.standardSize, Screen.standardSize)

variable (machine : Machine)

/-! ### Engine -/

theorem execute_sizes (word : Word) : (machine.execute word).machine.sizes = machine.sizes := by
  have effect := perform_effect word (machine.note word)
  exact Prod.ext effect.memory_size effect.screen_size

theorem pollKeys_sizes : machine.pollKeys.machine.sizes = machine.sizes := by
  cases found : machine.registers.firstKey? with
  | none => rw [pollKeys_none found, Outcome.done_machine]
  | some key =>
    rw [pollKeys_some found]
    rfl

theorem fetch?_sizes {word : Word} {fetched : Machine}
    (found : machine.fetch? = some (word, fetched)) : fetched.sizes = machine.sizes := by
  obtain ⟨-, rfl⟩ := fetch?_eq_some_iff.mp found
  rfl

theorem tick_sizes : machine.tick.machine.sizes = machine.sizes := by
  cases machine.tickKind with
  | waits waiting =>
    rw [tick_waiting waiting]
    exact machine.pollKeys_sizes
  | stuck running unfetched => rw [tick_unfetched running unfetched, Outcome.outOfBounds_machine]
  | executes word fetched running found =>
    rw [tick_machine running found, execute_sizes]
    exact machine.fetch?_sizes found

/-! ### Loads, keys and registers -/

theorem loadProgram_sizes (program : Array UInt8) :
    (machine.loadProgram program).machine.sizes = machine.sizes := by
  obtain ⟨memory, size, left | left⟩ := machine.loadProgram_machine program
  · rw [left]
    exact Prod.ext size rfl
  · rw [left]
    exact Prod.ext size rfl

theorem loadRegion_sizes (region : Region) (payload : Array UInt8) :
    (machine.loadRegion region payload).machine.sizes = machine.sizes := by
  obtain ⟨memory, size, left⟩ := machine.loadRegion_machine region payload
  rw [left]
  exact Prod.ext size rfl

theorem setKey_sizes (key : Nat) (down : Bool) :
    (machine.setKey key down).machine.sizes = machine.sizes := by
  obtain ⟨keys, left⟩ := machine.setKey_machine key down
  rw [left]
  rfl

theorem setRegister_sizes (register : Nat) (value : UInt8) :
    (machine.setRegister register value).machine.sizes = machine.sizes := by
  obtain ⟨v, left⟩ := machine.setRegister_machine register value
  rw [left]
  rfl

theorem changeMemory_sizes {result : Option Memory}
    (size : ∀ memory, result = some memory → memory.size = machine.memory.size) :
    (Operation.changeMemory machine result).machine.sizes = machine.sizes := by
  cases result with
  | none => rfl
  | some memory => exact Prod.ext (size memory rfl) rfl

end Machine

/-! ### All operations -/

/-- **No operation changes the size of memory or screen**, even if it fails. -/
theorem Operation.perform_sizes (machine : Machine) (operation : Operation) :
    (operation.perform machine).machine.sizes = machine.sizes := by
  cases operation with
  | tick => exact machine.tick_sizes
  | loadProgram program => exact machine.loadProgram_sizes program
  | loadFont font => exact machine.loadRegion_sizes .charset font
  | loadRegion region payload => exact machine.loadRegion_sizes region payload
  | press key => exact machine.setKey_sizes key true
  | release key => exact machine.setKey_sizes key false
  | setRegister register value => exact machine.setRegister_sizes register value
  | execute word => exact machine.execute_sizes word
  | pollKeys => exact machine.pollKeys_sizes
  | reset => exact Prod.ext (Memory.size_erase _) (Screen.size_erase _)
  | eraseMemory => exact Prod.ext (Memory.size_erase _) rfl
  | eraseScreen => exact Prod.ext rfl (Screen.size_erase _)
  | fetch =>
    simp only [perform]
    split
    · rfl
    · rename_i found
      exact machine.fetch?_sizes found
  | setSlot | setKey =>
    simp only [perform]
    split <;> rfl
  | store address value =>
    exact machine.changeMemory_sizes fun memory stored => Memory.size_of_store? stored
  | clearRegion region =>
    exact machine.changeMemory_sizes fun memory cleared => Memory.size_of_splice? cleared
  | overwrite start data =>
    simp only [perform]
    split
    · rfl
    · rename_i spliced
      exact Prod.ext (Memory.size_of_splice? spliced) rfl
  | setPixel index value =>
    simp only [perform]
    split
    · rfl
    · rename_i found
      exact Prod.ext rfl (Screen.size_of_setPixel? found)
  | togglePixel index value =>
    simp only [perform]
    split
    · rfl
    · rename_i found
      exact Prod.ext rfl (Screen.size_of_toggle? found)
  | _ => rfl

namespace Machine

/-- **The machines that are reached from a new one.** Operations may fail and are gone on from; parts
may be restored, if they have the standard sizes; random bytes may come from anywhere. -/
inductive Reachable : Machine → Prop
  | new (source : RandomSource) : Reachable (new source)
  | perform {machine : Machine} (reached : Reachable machine) (operation : Operation) :
      Reachable (operation.perform machine).machine
  | restore {machine : Machine} (reached : Reachable machine) (part : Part) (value : Value)
      (source : RandomSource)
      (sizes : (machine.restorePart part value source).2.sizes = standardSizes) :
      Reachable (machine.restorePart part value source).2
  | replace {machine : Machine} (reached : Reachable machine) (source : RandomSource) :
      Reachable { machine with source }

theorem Reachable.after {machine : Machine} (reached : machine.Reachable)
    (operations : List Operation) : (machine.after operations).Reachable := by
  induction operations generalizing machine with
  | nil => exact reached
  | cons operation rest ih => exact ih (reached.perform operation)

/-- Every reachable machine has the standard sizes. -/
theorem Reachable.sizes {machine : Machine} (reached : machine.Reachable) :
    machine.sizes = standardSizes := by
  induction reached with
  | new source => exact Prod.ext Array.size_replicate Array.size_replicate
  | perform reached operation same => exact (operation.perform_sizes _).trans same
  | restore reached part value source sizes => exact sizes
  | replace reached source same => exact same

end Machine

end ChipEight
