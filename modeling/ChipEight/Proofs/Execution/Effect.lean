/-
**What a word can do.**

`Machine.Effect` lists the ways in which carrying out a word can end, each with the words that may
end that way and what becomes of the machine. A word is carried out as an instruction, does nothing,
or is unknown, so the meanings of the instructions decide which ways there are:

* `meaning_effect`: an instruction ends in one of the listed ways;
* `perform_effect`: so does every word.

What any word leaves alone is read off this list.
-/

import ChipEight.Proofs.Instruction.Reading

namespace ChipEight.Machine

/-- **The ways in which a word ends**, and the words that may end so. -/
inductive Effect (word : Word) (machine : Machine) : Outcome Unit → Prop
  | unknown (family : word.family = 0x8 ∨ word.family = 0xe ∨ word.family = 0xf) :
      Effect word machine (machine.unknown word)
  | idle (family : word.family = 0x0) (other : word ≠ 0x00ee) :
      Effect word machine (.done () machine)
  | clear (itself : word = 0x00e0) :
      Effect word machine (.done () { machine with screen := machine.screen.erase })
  /-- The counter comes from the stack. -/
  | goBack (itself : word = 0x00ee) (slot : Fin 12)
      (pointer : machine.registers.sp.toNat = slot.val + 1) :
      Effect word machine (.done () (machine.mapRegisters fun registers =>
        { registers with sp := registers.sp - 1, pc := registers.stack.get slot }))
  /-- The stack has no address to return to. -/
  | underflow (itself : word = 0x00ee)
      (outside : machine.registers.sp = 0 ∨ 12 < machine.registers.sp.toNat) :
      Effect word machine (.outOfBounds (machine.mapRegisters fun registers =>
        { registers with sp := registers.sp - 1 }))
  /-- The counter goes to the stack and moves. -/
  | call (family : word.family = 0x2) (room : machine.registers.sp.toNat < 12) :
      Effect word machine (.done () (machine.mapRegisters fun registers =>
        { registers with
          stack := registers.stack.setIfInBounds registers.sp.toNat registers.pc
          sp := registers.sp + 1
          pc := word.address }))
  | overflow (family : word.family = 0x2) (full : 12 ≤ machine.registers.sp.toNat) :
      Effect word machine (.outOfBounds machine)
  /-- The counter moves. -/
  | jump (target : UInt16) (family : word.family = 0x1 ∨ word.family = 0xb)
      (near : target.toNat ≤ 0x10fe) : Effect word machine (.done () (machine.jump target))
  /-- The counter passes an instruction, or does not. -/
  | skip (condition : Bool)
      (family : word.family = 0x3 ∨ word.family = 0x4 ∨ word.family = 0x5 ∨ word.family = 0x9 ∨
        word.family = 0xe) :
      Effect word machine (.done () (machine.mapRegisters (·.skipIf condition)))
  | set (value : UInt8)
      (family : word.family = 0x6 ∨ word.family = 0x7 ∨ word.family = 0x8 ∨ word.family = 0xf) :
      Effect word machine (.done () (machine.mapRegisters (·.set word.x value)))
  | setWithFlag (value : UInt8) (carry : Bool) (family : word.family = 0x8) :
      Effect word machine (.done () (machine.mapRegisters (·.setWithFlag word.x value carry)))
  | setIndex (value : UInt16) (family : word.family = 0xa ∨ word.family = 0xf) :
      Effect word machine
        (.done () (machine.mapRegisters fun registers => { registers with index := value }))
  | setDelay (value : UInt8) (family : word.family = 0xf) :
      Effect word machine
        (.done () (machine.mapRegisters fun registers => { registers with delay := value }))
  | setSound (value : UInt8) (family : word.family = 0xf) :
      Effect word machine
        (.done () (machine.mapRegisters fun registers => { registers with sound := value }))
  | random (family : word.family = 0xc) :
      Effect word machine (.done () (machine.random word.x word.immediate))
  /-- A sprite is drawn, wholly or in part. -/
  | draw (family : word.family = 0xd) (answer : Except Failure Unit)
      (bounds : answer = .ok () ∨ answer = .error .outOfBounds) (targets : List Nat) :
      Effect word machine ⟨answer, { machine with
        screen := (machine.screen.flipAll targets).screen
        registers := machine.registers.raiseFlagIf (machine.screen.flipAll targets).collided }, []⟩
  | awaitKey (itself : word &&& 0xf0ff = 0xf00a) : Effect word machine (machine.awaitKey word.x)
  /-- Three digits are stored, or the first few of them. -/
  | storeDigits (family : word.family = 0xf) (answer : Except Failure Unit)
      (bounds : answer = .ok () ∨ answer = .error .outOfBounds) (digits : List UInt8) :
      Effect word machine ⟨answer, { machine with
        memory := machine.memory.overlay machine.registers.index.toNat digits }, []⟩
  | storeRegisters (family : word.family = 0xf) (memory : Memory) (index : UInt16)
      (size : memory.size = machine.memory.size) :
      Effect word machine
        (.done () { machine with memory, registers := { machine.registers with index } })
  | loadRegisters (family : word.family = 0xf) (v : Vector UInt8 16) (index : UInt16) :
      Effect word machine
        (.done () (machine.mapRegisters fun registers => { registers with v, index }))
  /-- Memory has no room for a block of registers. -/
  | blockOutside (family : word.family = 0xf) : Effect word machine (.outOfBounds machine)

variable {word : Word} {machine : Machine}

/-! ### Instructions -/

/-- A jump from register zero stays near. -/
theorem jumpFrom_toNat_le : (UInt16.ofNat (machine.value 0 + word.address.toNat)).toNat ≤ 0x10fe := by
  have base : machine.value 0 < 256 := (machine.get _).toNat_lt
  rw [UInt16.toNat_ofNat', Word.address_toNat]
  omega

/-- Putting a number into a byte register is setting that register. -/
theorem putting_effect {value : Nat}
    (family : word.family = 0x6 ∨ word.family = 0x7 ∨ word.family = 0x8 ∨ word.family = 0xf) :
    Effect word machine (machine.putting word.x value) := by
  rw [putting_eq machine word.x rfl]
  exact .set _ family

theorem puttingWithFlag_effect {value : Nat} {flag : Bool} (family : word.family = 0x8) :
    Effect word machine (machine.puttingWithFlag word.x value flag) := by
  rw [puttingWithFlag_eq machine word.x rfl rfl]
  exact .setWithFlag _ flag family

/-- **An instruction ends in one of the listed ways**, for the words that are carried out as it. -/
theorem meaning_effect {instruction : Instruction} (reads : word.ReadsAs instruction) :
    Effect word machine (instruction.meaning machine) := by
  cases reads with
  | clearScreen itself => exact .clear itself
  | returnFromCall itself =>
    simp only [Instruction.meaning]
    split
    · rename_i slot
      exact .goBack itself ⟨_, slot⟩ (Registers.pointer_of_slot slot)
    · rename_i noSlot
      exact .underflow itself ((Registers.no_slot_iff _).mp noSlot)
  | jump family =>
    refine .jump _ (.inl family) ?_
    rw [Word.address_toNat]
    omega
  | jumpFrom family => exact .jump _ (.inr family) jumpFrom_toNat_le
  | call family =>
    simp only [Instruction.meaning]
    split
    · rename_i room
      exact .call family room
    · rename_i full
      exact .overflow family (Nat.not_lt.mp full)
  | skipIfByte family | skipUnlessByte family | skipIfEqual family | skipUnlessEqual family =>
    exact .skip _ (by omega)
  | skipIfKey itself | skipUnlessKey itself =>
    have family := itself.1
    exact .skip _ (by omega)
  | loadByte family | addByte family | copy family | bitOr family | bitAnd family
    | bitXor family => exact putting_effect (by omega)
  | readDelay itself => exact putting_effect (.inr (.inr (.inr itself.1)))
  | add family | subtract family | subtractFrom family | shiftRight family | shiftLeft family =>
    exact puttingWithFlag_effect family
  | setIndex family => exact .setIndex _ (.inl family)
  | addIndex itself | pointAtGlyph itself => exact .setIndex _ (.inr itself.1)
  | setDelay itself => exact .setDelay _ itself.1
  | setSound itself => exact .setSound _ itself.1
  | random family =>
    simp only [Instruction.meaning, Registers.named_val]
    exact .random family
  | draw family =>
    have low := word.n_lt
    rw [← draw_meaning machine word.x word.y (by omega)]
    obtain ⟨answer, targets, bounds, drawn⟩ := draw_eq machine word.x word.y word.n
    rw [drawn]
    exact .draw family answer bounds targets
  | awaitKey itself =>
    simp only [Instruction.meaning, Registers.named_val]
    exact .awaitKey (word.masked_eq_wait_iff.mpr itself)
  | storeDigits itself =>
    simp only [Instruction.meaning]
    split
    · exact .storeDigits itself.1 (.ok ()) (.inl rfl) _
    · exact .storeDigits itself.1 (.error .outOfBounds) (.inr rfl) _
  | storeRegisters itself =>
    simp only [Instruction.meaning]
    split
    · exact .storeRegisters itself.1 _ _ (Memory.size_overlay _ _ _)
    · exact .blockOutside itself.1
  | loadRegisters itself =>
    simp only [Instruction.meaning]
    split
    · exact .loadRegisters itself.1 _ _
    · exact .blockOutside itself.1

/-! ### Words -/

/-- **A word ends in one of the listed ways.** -/
theorem perform_effect (word : Word) (machine : Machine) :
    Effect word machine (machine.perform word) := by
  rcases machine.perform_cases word with
    ⟨instruction, reads, performed⟩ | ⟨family, noReturn, performed⟩ | ⟨family, performed⟩
  · rw [performed]
    exact meaning_effect reads
  · rw [performed]
    exact .idle family noReturn
  · rw [performed]
    exact .unknown family

end ChipEight.Machine
