/-
**What every reachable machine keeps within.**

From a new machine on, the calls of a host and changes of settings keep the sizes of memory and
screen, the counter below `0x10fe` and all return addresses below `0x1000` (`WithinBounds`). The two
bounds need each other: a call stores the counter, a return loads it. What makes them hold is the
fetch, which is refused at the end of memory and so leaves a counter of at most `0x1000`:

* `WithinBounds.flow`: a word keeps the bounds if it is executed behind a fetch;
* `WithinBounds.perform`: so does every allowed operation, even if it fails;
* `reachable_within_bounds`: so does every session, and no counter runs over in it.
-/

import ChipEight.Proofs.Execution.Frame
import ChipEight.Proofs.Session.HostCall

namespace ChipEight

/-- Whether an operation is a call of a host or a change of settings. -/
def Operation.isHostChange : Operation → Bool
  | toggleDebug | setSettings _ | setVariant _ => true
  | operation => operation.isHostCall

namespace Machine

/-- **The bounds of a reachable machine.** -/
structure WithinBounds (machine : Machine) : Prop where
  memory : machine.memory.size = Memory.standardSize
  screen : machine.screen.size = Screen.standardSize
  counter : machine.registers.pc.toNat ≤ 0x10fe
  stack : ∀ slot : Fin 12, (machine.registers.stack.get slot).toNat ≤ 0x1000

namespace WithinBounds

variable {machine fetched : Machine} {word : Word} {operation : Operation}

/-! ### Blank registers -/

theorem of_blank (memory : machine.memory.size = Memory.standardSize)
    (screen : machine.screen.size = Screen.standardSize) (registers : machine.registers = .blank) :
    machine.WithinBounds := by
  refine ⟨memory, screen, ?_, ?_⟩
  · rw [registers]
    decide
  · rw [registers]
    decide

theorem of_new (source : RandomSource) : (new source).WithinBounds :=
  of_blank (new_memory_size source) Array.size_replicate rfl

theorem reset (bounds : machine.WithinBounds) (source : RandomSource) :
    (machine.reset source).WithinBounds :=
  of_blank ((Memory.size_erase _).trans bounds.memory)
    ((Screen.size_erase _).trans bounds.screen) rfl

/-! ### Ticks -/

/-- A fetched word lies in memory, so the counter behind it is at most the size of memory. -/
theorem fetch (bounds : machine.WithinBounds) (found : machine.fetch? = some (word, fetched)) :
    fetched.registers.pc.toNat = machine.registers.pc.toNat + 2 ∧
      fetched.registers.pc.toNat ≤ 0x1000 := by
  have inside : ¬ machine.memory.size ≤ machine.registers.pc.toNat + 1 := by
    rw [← fetch?_eq_none_iff, found]
    exact nofun
  rw [bounds.memory] at inside
  change ¬ 0x1000 ≤ _ at inside
  obtain ⟨-, rfl⟩ := fetch?_eq_some_iff.mp found
  have moved := machine.registers.skip_toNat (by omega)
  refine ⟨moved, ?_⟩
  show machine.registers.skip.pc.toNat ≤ 0x1000
  omega

theorem pollKeys (bounds : machine.WithinBounds) : machine.pollKeys.machine.WithinBounds := by
  cases found : machine.registers.firstKey? with
  | none =>
    rw [pollKeys_none found]
    exact bounds
  | some key =>
    rw [pollKeys_some found]
    exact ⟨bounds.memory, bounds.screen, bounds.counter, bounds.stack⟩

/-- **A word that is executed behind a fetch keeps the counter and the stack within bounds.** -/
theorem flow {before : Registers} {outcome : Outcome Unit} (flow : Flow word before outcome)
    (counter : before.pc.toNat ≤ 0x1000)
    (stack : ∀ slot : Fin 12, (before.stack.get slot).toNat ≤ 0x1000) :
    outcome.machine.registers.pc.toNat ≤ 0x10fe ∧
      ∀ slot : Fin 12, (outcome.machine.registers.stack.get slot).toNat ≤ 0x1000 := by
  cases flow with
  | keeps noReturn noCall pointer sameStack moved =>
    rw [sameStack]
    refine ⟨?_, stack⟩
    rcases moved with same | skipped | near
    · rw [same]
      omega
    · rw [skipped]
      show before.skip.pc.toNat ≤ 0x10fe
      rw [before.skip_toNat (by omega)]
      omega
    · exact near
  | calls family success room pointer pushed near =>
    refine ⟨near, fun slot => ?_⟩
    -- the new slot holds the counter, all others are old
    rw [pushed]
    show ((before.stack.setIfInBounds before.sp.toNat before.pc)[slot.val]).toNat ≤ 0x1000
    rw [Vector.getElem_setIfInBounds slot.isLt]
    split
    · exact counter
    · exact stack slot
  | overflows family fault full registers =>
    rw [registers]
    exact ⟨by omega, stack⟩
  | returns itself success slot pointer lowered sameStack loaded =>
    rw [sameStack, loaded]
    exact ⟨Nat.le_trans (stack slot) (by decide), stack⟩
  | underflows itself fault outside lowered sameStack same =>
    rw [sameStack, same]
    exact ⟨by omega, stack⟩

theorem tick (bounds : machine.WithinBounds) : machine.tick.machine.WithinBounds := by
  cases machine.tickKind with
  | waits waiting =>
    rw [tick_waiting waiting]
    exact bounds.pollKeys
  | stuck running unfetched =>
    rw [tick_unfetched running unfetched]
    exact bounds
  | executes word fetched running found =>
    have counter := (bounds.fetch found).2
    obtain ⟨-, rfl⟩ := fetch?_eq_some_iff.mp found
    have effect := perform_effect word ((machine.mapRegisters (·.skip)).note word)
    obtain ⟨counterAfter, stackAfter⟩ := WithinBounds.flow effect.flow counter bounds.stack
    rw [tick_machine running found]
    exact ⟨effect.memory_size.trans bounds.memory, effect.screen_size.trans bounds.screen,
      counterAfter, stackAfter⟩

/-! ### Sessions -/

theorem hostCall (bounds : machine.WithinBounds) (call : operation.isHostCall = true) :
    (operation.perform machine).machine.WithinBounds := by
  by_cases isTick : operation = .tick
  · subst isTick
    exact bounds.tick
  by_cases isReset : ∃ source, operation = .reset source
  · obtain ⟨source, rfl⟩ := isReset
    exact bounds.reset source
  obtain ⟨memory, registers, loaded, size, same, counter, left⟩ :=
    hostCall_machine machine call isTick fun source reset => isReset ⟨source, reset⟩
  have stack : registers.stack = machine.registers.stack := (Prod.mk.inj same).2
  rw [left]
  refine ⟨size.trans bounds.memory, bounds.screen, ?_, ?_⟩
  · show registers.pc.toNat ≤ 0x10fe
    rcases counter with stays | starts
    · rw [stays]
      exact bounds.counter
    · rw [starts]
      decide
  · show ∀ slot, (registers.stack.get slot).toNat ≤ 0x1000
    rw [stack]
    exact bounds.stack

/-- **An allowed operation keeps within bounds**, even if it fails. -/
theorem perform (bounds : machine.WithinBounds) (change : operation.isHostChange = true) :
    (operation.perform machine).machine.WithinBounds := by
  cases operation with
  | toggleDebug | setSettings settings | setVariant variant =>
    exact ⟨bounds.memory, bounds.screen, bounds.counter, bounds.stack⟩
  | _ => exact bounds.hostCall change

theorem after_of_new (source : RandomSource) {operations : List Operation}
    (changes : ∀ operation ∈ operations, operation.isHostChange = true) :
    ((new source).after operations).WithinBounds :=
  after_invariant (fun _ _ change bounds => bounds.perform change) (of_new source) changes

end WithinBounds

/-- The pointer of a new machine runs around if the first word it executes returns. -/
theorem new_underflow (source : RandomSource) :
    ((new source).after [.loadFont #[0x00, 0xee]]).tick.answer = .error .outOfBounds ∧
      ((new source).after [.loadFont #[0x00, 0xee], .tick]).registers.sp = 65535 := by
  have holds : Region.charset.stop ≤ (new source).memory.size := by
    rw [new_memory_size]
    decide
  obtain ⟨memory, -, executes⟩ := execution_by_font (new source) rfl rfl holds 0x00 0xee
  have performed := after_concat (new source) [.loadFont #[0x00, 0xee]] .tick
  rw [List.singleton_append, (Operation.perform_execution executes).1] at performed
  obtain ⟨running, found⟩ := Operation.execution_tick_iff.mp executes
  rw [performed, tick_answer running found]
  have flow := (perform_effect (Word.ofBytes 0x00 0xee) (note (Word.ofBytes 0x00 0xee)
    (mapRegisters { new source with memory } (·.skip)))).flow
  cases flow with
  | keeps noReturn => exact absurd (by decide) noReturn
  | calls family | overflows family => exact absurd family (by decide)
  | returns itself success slot pointer => cases pointer
  | underflows itself fault outside lowered => exact ⟨fault, lowered⟩

/-- **Every reachable machine keeps within bounds**, whatever the operations before it answered. So
neither a fetch nor a skip behind it moves the counter around, although the pointer of the stack may
have run around in a return that failed. -/
theorem reachable_within_bounds (source : RandomSource) (operations : List Operation)
    (changes : ∀ operation ∈ operations, operation.isHostChange = true) :
    ((new source).after operations).WithinBounds ∧
    (∀ word fetched, ((new source).after operations).fetch? = some (word, fetched) →
      fetched.registers.pc.toNat = ((new source).after operations).registers.pc.toNat + 2 ∧
        fetched.registers.skip.pc.toNat = fetched.registers.pc.toNat + 2) ∧
    ((new source).after [.loadFont #[0x00, 0xee]]).tick.answer = .error .outOfBounds ∧
    ((new source).after [.loadFont #[0x00, 0xee], .tick]).registers.sp = 65535 := by
  have bounds := WithinBounds.after_of_new source changes
  refine ⟨bounds, fun word fetched found => ?_, new_underflow source⟩
  obtain ⟨moved, low⟩ := bounds.fetch found
  exact ⟨moved, fetched.registers.skip_toNat (by omega)⟩

/-- The run in which the pointer of the stack has run around. -/
theorem reachable_within_bounds_underflow :
    let operations : List Operation := [.loadFont #[0x00, 0xee], .tick, .toggleDebug]
    (∀ operation ∈ operations, operation.isHostChange = true) ∧
      ((new (.ofSeed 0)).after operations).WithinBounds := by
  intro operations
  have changes : ∀ operation ∈ operations, operation.isHostChange = true := by
    simp [operations, Operation.isHostChange, Operation.isHostCall]
  exact ⟨changes, (reachable_within_bounds (.ofSeed 0) operations changes).1⟩

end Machine

end ChipEight
