/-
**Waiting for a key.**

The control unit does not say which register a wait is for: the key goes into the first register of
the last word that was executed. That this word began the wait is a fact about whole sessions:

* `wait_begins`: a wait begins only by a tick, with a word that waits for a key;
* `wait_goes_on`: while a machine goes on waiting, its last word stays;
* `wait_began`: so in every session of host calls the last word of a waiting machine is the one that
  began the wait;
* `tick_without_key`, `tick_with_key`: what a tick of a waiting machine does.
-/

import Mathlib.Data.List.Induction
import ChipEight.Proofs.Execution.Frame
import ChipEight.Proofs.Registers
import ChipEight.Proofs.Session.HostCall

namespace ChipEight.Machine

/-- **A word began the wait that operations end in**: a tick fetched the word on a machine that did
not wait, and the machine has waited ever since. -/
def WaitBeganBy (machine : Machine) (operations : List Operation) (word : Word) : Prop :=
  ∃ before during, operations = before ++ .tick :: during ∧
    (machine.after before).isWaiting = false ∧
    (machine.after before).memory.word? (machine.after before).registers.pc.toNat = some word ∧
    ∀ taken, taken <+: during → (machine.after (before ++ .tick :: taken)).isWaiting = true

/-- The machine with a key in a register and its wait ended. -/
def takingKey (machine : Machine) (register key : Fin 16) : Machine :=
  { machine with
    registers := machine.registers.set register (UInt8.ofNat key)
    control.settings.waiting := false }

variable {machine : Machine} {operation : Operation} {word : Word}

/-! ### Executing -/

/-- A word that waits for a key is noted and begins a wait, whatever keys are down. -/
theorem execute_wait (machine : Machine) (itself : word &&& 0xf0ff = 0xf00a) :
    (machine.execute word).answer = .ok () ∧
      (machine.execute word).machine =
        { machine.note word with control.settings.waiting := true } := by
  unfold execute
  rw [perform_wait _ itself]
  exact ⟨rfl, rfl⟩

/-- Every other word leaves the settings alone, and every word is noted. -/
theorem execute_control (machine : Machine) (other : word &&& 0xf0ff ≠ 0xf00a) :
    (machine.execute word).machine.control = (machine.note word).control :=
  (perform_effect word (machine.note word)).control other

/-! ### Ticks of a waiting machine -/

/-- Without a key, a tick of a waiting machine does nothing. -/
theorem tick_without_key (waiting : machine.isWaiting = true)
    (up : ∀ key, machine.registers.isDown key = false) : machine.tick = .done () machine := by
  rw [tick_waiting waiting, pollKeys_none (machine.registers.firstKey?_eq_none_iff.mpr up)]
  rfl

/-- The lowest key goes into the first register of the last word, and ends the wait. -/
theorem tick_with_key {key : Fin 16} (waiting : machine.isWaiting = true)
    (down : machine.registers.isDown key = true)
    (lowest : ∀ lower < key, machine.registers.isDown lower = false) :
    machine.tick.answer = .ok () ∧
      machine.tick.machine = machine.takingKey machine.control.lastWord.x key := by
  have found := (machine.registers.firstKey?_eq_some_iff key).mpr ⟨down, lowest⟩
  rw [tick_waiting waiting, pollKeys_some found]
  exact ⟨rfl, rfl⟩

/-! ### Steps of a session -/

/-- **A wait begins by a tick**, with the word at the counter, which becomes the last word. -/
theorem wait_begins (call : operation.isHostCall = true) (running : machine.isWaiting = false)
    (waits : (operation.perform machine).machine.isWaiting = true) :
    operation = .tick ∧ ∃ word, machine.memory.word? machine.registers.pc.toNat = some word ∧
      word &&& 0xf0ff = 0xf00a ∧ (operation.perform machine).machine.control.lastWord = word := by
  by_cases isTick : operation = .tick
  · subst isTick
    refine ⟨rfl, ?_⟩
    cases found : machine.fetch? with
    | none =>
      change machine.tick.machine.isWaiting = true at waits
      rw [tick_unfetched running found] at waits
      exact absurd waits (by simpa using running)
    | some pair =>
      obtain ⟨word, fetched⟩ := pair
      obtain ⟨read, rfl⟩ := fetch?_eq_some_iff.mp found
      change machine.tick.machine.isWaiting = true at waits
      show ∃ word, _ ∧ _ ∧ machine.tick.machine.control.lastWord = word
      rw [tick_machine running found] at waits ⊢
      by_cases itself : word &&& 0xf0ff = 0xf00a
      · refine ⟨word, read, itself, ?_⟩
        rw [(execute_wait _ itself).2]
        rfl
      · unfold isWaiting at waits running
        rw [execute_control _ itself] at waits
        exact absurd (waits.symm.trans running) (by decide)
  · rcases hostCall_control machine call isTick with same | ended
    · unfold isWaiting at waits running
      rw [same, running] at waits
      cases waits
    · rw [ended] at waits
      cases waits

/-- **A wait goes on with the same last word.** -/
theorem wait_goes_on (call : operation.isHostCall = true) (waiting : machine.isWaiting = true)
    (waits : (operation.perform machine).machine.isWaiting = true) :
    (operation.perform machine).machine.control.lastWord = machine.control.lastWord := by
  by_cases isTick : operation = .tick
  · subst isTick
    change machine.tick.machine.isWaiting = true at waits
    show machine.tick.machine.control.lastWord = _
    cases found : machine.registers.firstKey? with
    | none =>
      rw [tick_waiting waiting, pollKeys_none found]
      rfl
    | some key =>
      rw [tick_waiting waiting, pollKeys_some found]
      rfl
  · rcases hostCall_control machine call isTick with same | ended
    · rw [same]
    · rw [ended] at waits
      cases waits

/-! ### Sessions -/

/-- **The last word of a waiting machine began its wait.** -/
theorem wait_began {start : Machine} (running : start.isWaiting = false)
    {operations : List Operation} (calls : ∀ operation ∈ operations, operation.isHostCall = true)
    (waits : (start.after operations).isWaiting = true) :
    (start.after operations).control.lastWord &&& 0xf0ff = 0xf00a ∧
      start.WaitBeganBy operations (start.after operations).control.lastWord := by
  induction operations using List.reverseRecOn with
  | nil => exact absurd (waits.symm.trans running) (by decide)
  | append_singleton operations operation ih =>
    have call := calls operation (by simp)
    have earlier := ih fun other member => calls other (by simp [member])
    rw [after_concat] at waits ⊢
    cases before : (start.after operations).isWaiting with
    | false =>
      -- the wait begins with this operation
      obtain ⟨rfl, word, read, itself, last⟩ := wait_begins call before waits
      rw [last]
      refine ⟨itself, operations, [], rfl, before, read, fun taken isPrefix => ?_⟩
      obtain rfl := List.prefix_nil.mp isPrefix
      rw [after_concat]
      exact waits
    | true =>
      -- the wait has begun earlier and goes on
      obtain ⟨itself, start₁, during, rfl, running₁, read, since⟩ := earlier before
      rw [wait_goes_on call before waits]
      refine ⟨itself, start₁, during ++ [operation], by simp, running₁, read, ?_⟩
      intro taken isPrefix
      rcases List.prefix_concat_iff.mp isPrefix with rfl | isPrefix
      · rw [← List.cons_append, ← List.append_assoc, after_concat]
        exact waits
      · exact since taken isPrefix

/-- **The protocol of a wait.** In every session of host calls with a new machine, a waiting machine
has executed last the word that began the wait, and its next tick puts the lowest key into the
register of that word. Such a word always begins a wait. While a machine waits, a tick without a key
changes nothing, and one with a key changes a byte register and ends the wait. -/
theorem key_wait_protocol (source : RandomSource) (operations : List Operation)
    (calls : ∀ operation ∈ operations, operation.isHostCall = true) :
    (((new source).after operations).isWaiting = true →
      ∃ word, word &&& 0xf0ff = 0xf00a ∧ (new source).WaitBeganBy operations word ∧
        ((new source).after operations).control.lastWord = word ∧
        ∀ key, ((new source).after operations).registers.isDown key = true →
          (∀ lower < key, ((new source).after operations).registers.isDown lower = false) →
            ((new source).after operations).tick.machine =
              ((new source).after operations).takingKey word.x key) ∧
    (∀ (machine : Machine) (word : Word), word &&& 0xf0ff = 0xf00a →
      (machine.execute word).answer = .ok () ∧
        (machine.execute word).machine =
          { machine.note word with control.settings.waiting := true }) ∧
    (∀ machine : Machine, machine.isWaiting = true →
      (∀ key, machine.registers.isDown key = false) → machine.tick = .done () machine) ∧
    (∀ (machine : Machine) (pressed : Fin 16), machine.isWaiting = true →
      machine.registers.isDown pressed = true →
        ∃ key, machine.registers.isDown key = true ∧
          (∀ lower < key, machine.registers.isDown lower = false) ∧
          machine.tick.answer = .ok () ∧
          machine.tick.machine = machine.takingKey machine.control.lastWord.x key ∧
          (machine.tick.machine.get machine.control.lastWord.x).toNat = key.val ∧
          ∀ other ≠ machine.control.lastWord.x,
            machine.tick.machine.get other = machine.get other) := by
  refine ⟨fun waits => ?_, fun machine word => execute_wait machine,
    fun machine => tick_without_key, fun machine pressed waiting down => ?_⟩
  · obtain ⟨itself, began⟩ := wait_began (rfl : (new source).isWaiting = false) calls waits
    exact ⟨_, itself, began, rfl, fun key down lowest => (tick_with_key waits down lowest).2⟩
  · obtain ⟨key, isDown, lowest⟩ := machine.registers.exists_lowest down
    obtain ⟨success, left⟩ := tick_with_key waiting isDown lowest
    refine ⟨key, isDown, lowest, success, left, ?_, fun other distinct => ?_⟩
    · rw [left]
      show ((machine.registers.set _ _).get _).toNat = key.val
      rw [Registers.get_set_self, UInt8.toNat_ofNat']
      exact Nat.mod_eq_of_lt (by omega)
    · rw [left]
      exact Registers.get_set_of_ne _ _ distinct.symm

/-- A wait for register five that key eleven is about to end. -/
theorem key_wait_protocol_pressed :
    let machine := new (.ofSeed 0)
    let operations : List Operation := [.loadFont #[0xf5, 0x0a], .tick, .press 11]
    (∀ operation ∈ operations, operation.isHostCall = true) ∧
      (machine.after operations).isWaiting = true ∧
      (machine.after operations).tick.machine = (machine.after operations).takingKey 5 11 := by
  intro machine operations
  have calls : ∀ operation ∈ operations, operation.isHostCall = true := by
    simp [operations, Operation.isHostCall]
  have holds : Region.charset.stop ≤ machine.memory.size := by
    rw [new_memory_size]
    decide
  obtain ⟨memory, -, executes⟩ := execution_by_font machine rfl rfl holds 0xf5 0x0a
  have itself : Word.ofBytes 0xf5 0x0a &&& 0xf0ff = 0xf00a := by decide
  have ticked := after_concat machine [.loadFont #[0xf5, 0x0a]] .tick
  rw [List.singleton_append, (Operation.perform_execution executes).1,
    (execute_wait _ itself).2] at ticked
  have left : machine.after operations = _ :=
    after_concat machine [.loadFont #[0xf5, 0x0a], .tick] (.press 11)
  rw [ticked] at left
  have waits : (machine.after operations).isWaiting = true := by
    rw [left]
    rfl
  obtain ⟨word, -, -, last, taken⟩ := (key_wait_protocol (.ofSeed 0) operations calls).1 waits
  obtain rfl : Word.ofBytes 0xf5 0x0a = word := by
    rw [← last, left]
    rfl
  have five : (Word.ofBytes 0xf5 0x0a).x = 5 := by decide
  have keys : (machine.after operations).registers.isDown =
      (Registers.blank.setKey 11 true).isDown := by
    rw [left]
    rfl
  refine ⟨calls, waits, ?_⟩
  rw [five] at taken
  refine taken 11 ?_ ?_ <;> rw [keys] <;> decide

end ChipEight.Machine
