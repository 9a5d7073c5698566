/-
**What a word leaves alone.**

Read off the list of effects, for every word and however it ends:

* `Effect.control`: the control unit changes only if the word waits for a key, and `perform_wait`:
  a word that waits for a key does nothing else;
* `Effect.cycles`, `Effect.log`: it counts no further word, and reports little;
* `Effect.memory_size`, `Effect.screen_size`: the sizes of memory and screen stay;
* `Effect.flow`: the stack changes only by calls and returns, and any other word leaves the counter,
  moves it over one instruction, or moves it to a near target (`Flow`).
-/

import ChipEight.Proofs.Execution.Effect

namespace ChipEight.Machine

variable {word : Word} {machine : Machine} {outcome : Outcome Unit}

/-! ### Control unit and sizes -/

/-- A word that does not wait for a key leaves the control unit alone. -/
theorem Effect.control (effect : Effect word machine outcome)
    (other : word &&& 0xf0ff ≠ 0xf00a) : outcome.machine.control = machine.control := by
  cases effect with
  | awaitKey itself => exact absurd itself other
  | _ => rfl

/-- A word that waits for a key only begins to wait. -/
theorem perform_wait (machine : Machine) (itself : word &&& 0xf0ff = 0xf00a) :
    machine.perform word = machine.awaitKey word.x := by
  rw [perform_of_reads (.awaitKey (word.masked_eq_wait_iff.mp itself)), Instruction.meaning,
    Registers.named_val]
  rfl

/-- No word changes the record of the last word. -/
theorem Effect.lastWord (effect : Effect word machine outcome) :
    outcome.machine.control.lastWord = machine.control.lastWord := by
  cases effect <;> rfl

/-- No word changes the count of words once it is carried out. -/
theorem Effect.cycles (effect : Effect word machine outcome) :
    outcome.machine.control.cycles = machine.control.cycles := by
  cases effect <;> rfl

/-- **What a word reports**: that it is unknown, or at most that it waits for a key. -/
theorem Effect.log (effect : Effect word machine outcome) :
    (outcome.answer = .error (.refused (.unknownWord word)) ∧
        outcome.log = [.unknownWord (machine.registers.pc - 2) word]) ∨
      ((∀ reason, outcome.answer ≠ .error (.refused reason)) ∧
        (outcome.log = [] ∨ outcome.log = [.awaitingKey word.x])) := by
  cases effect with
  | unknown => exact .inl ⟨rfl, rfl⟩
  | awaitKey => exact .inr ⟨nofun, .inr rfl⟩
  | draw _ answer bounds | storeDigits _ answer bounds =>
    refine .inr ⟨?_, .inl rfl⟩
    rcases bounds with rfl | rfl <;> nofun
  | _ => exact .inr ⟨nofun, .inl rfl⟩

theorem Effect.memory_size (effect : Effect word machine outcome) :
    outcome.machine.memory.size = machine.memory.size := by
  cases effect with
  | storeDigits => exact Memory.size_overlay _ _ _
  | storeRegisters _ memory index size => exact size
  | _ => rfl

theorem Effect.screen_size (effect : Effect word machine outcome) :
    outcome.machine.screen.size = machine.screen.size := by
  cases effect with
  | clear => exact machine.screen.size_erase
  | draw => exact machine.screen.size_flipAll _
  | _ => rfl

/-! ### Counter and stack -/

/-- **How a word moves the counter and the stack**, by the registers before it and its outcome. -/
inductive Flow (word : Word) (before : Registers) (outcome : Outcome Unit) : Prop
  /-- The stack stays; the counter stays, passes an instruction, or moves to a near target. -/
  | keeps (noReturn : word ≠ 0x00ee) (noCall : word.family ≠ 0x2)
      (pointer : outcome.machine.registers.sp = before.sp)
      (stack : outcome.machine.registers.stack = before.stack)
      (counter : outcome.machine.registers.pc = before.pc ∨
        outcome.machine.registers.pc = before.pc + 2 ∨
        outcome.machine.registers.pc.toNat ≤ 0x10fe)
  /-- The counter goes into the next free slot. -/
  | calls (family : word.family = 0x2) (success : outcome.answer = .ok ())
      (room : before.sp.toNat < 12)
      (pointer : outcome.machine.registers.sp.toNat = before.sp.toNat + 1)
      (stack : outcome.machine.registers.stack =
        before.stack.setIfInBounds before.sp.toNat before.pc)
      (counter : outcome.machine.registers.pc.toNat ≤ 0x10fe)
  /-- There is no free slot. -/
  | overflows (family : word.family = 0x2) (fault : outcome.answer = .error .outOfBounds)
      (full : 12 ≤ before.sp.toNat) (registers : outcome.machine.registers = before)
  /-- The counter comes from the last used slot. -/
  | returns (itself : word = 0x00ee) (success : outcome.answer = .ok ()) (slot : Fin 12)
      (pointer : before.sp.toNat = slot.val + 1)
      (lowered : outcome.machine.registers.sp.toNat = slot.val)
      (stack : outcome.machine.registers.stack = before.stack)
      (counter : outcome.machine.registers.pc = before.stack.get slot)
  /-- There is no used slot. -/
  | underflows (itself : word = 0x00ee) (fault : outcome.answer = .error .outOfBounds)
      (outside : before.sp = 0 ∨ 12 < before.sp.toNat)
      (lowered : outcome.machine.registers.sp = before.sp - 1)
      (stack : outcome.machine.registers.stack = before.stack)
      (counter : outcome.machine.registers.pc = before.pc)

/-- Returns are in the first family. -/
theorem noReturn_of_family (family : word.family ≠ 0x0) : word ≠ 0x00ee := by
  rintro rfl
  exact family rfl

theorem Effect.flow (effect : Effect word machine outcome) :
    Flow word machine.registers outcome := by
  cases effect with
  | idle family other => exact .keeps other (by omega) rfl rfl (.inl rfl)
  | clear itself =>
    subst itself
    exact .keeps (by decide) (by decide) rfl rfl (.inl rfl)
  | goBack itself slot pointer =>
    refine .returns itself rfl slot pointer ?_ rfl rfl
    show (machine.registers.sp - 1).toNat = slot.val
    rw [Registers.lowered_toNat]
    omega
  | underflow itself outside => exact .underflows itself rfl outside rfl rfl rfl
  | call family room =>
    refine .calls family rfl room (Registers.raised_toNat room) rfl ?_
    show word.address.toNat ≤ 0x10fe
    rw [Word.address_toNat]
    omega
  | overflow family full => exact .overflows family rfl full rfl
  | jump target family near =>
    exact .keeps (noReturn_of_family (by omega)) (by omega) rfl rfl (.inr (.inr near))
  | skip condition family =>
    refine .keeps (noReturn_of_family (by omega)) (by omega) ?_ ?_ ?_ <;> cases condition
    · rfl
    · rfl
    · rfl
    · rfl
    · exact .inl rfl
    · exact .inr (.inl rfl)
  | draw family answer bounds targets =>
    refine .keeps (noReturn_of_family (by omega)) (by omega) ?_ ?_ (.inl ?_) <;>
      cases (machine.screen.flipAll targets).collided <;> rfl
  | awaitKey itself =>
    have family := (word.masked_eq_wait_iff.mp itself).1
    exact .keeps (noReturn_of_family (by omega)) (by omega) rfl rfl (.inl rfl)
  | unknown family | set _ family | setWithFlag _ _ family | setIndex _ family
    | setDelay _ family | setSound _ family | random family | storeDigits family
    | storeRegisters family | loadRegisters family | blockOutside family =>
    exact .keeps (noReturn_of_family (by omega)) (by omega) rfl rfl (.inl rfl)

end ChipEight.Machine
