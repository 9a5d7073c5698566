/-
**What each word does.**

`Machine.execute` notes the word, counts it and carries it out. The first digit of the word selects
a family, and within a family the last digits select the instruction. Digits that no instruction of
the family looks at do not matter: the register comparisons ignore the last digit, two last digits
mean a shift to the left, and a machine call does nothing. Words outside these families are unknown:
such a word is reported, with the address it was fetched from, and refused.

An instruction that reaches outside memory, stack or screen leaves what it did up to there:

* a call with no free slot changes nothing, while a return has already lowered the pointer;
* drawing reads the coordinates, the index register and the rows before it writes the flag, and ends
  at rows that memory does not hold and at pixels that the screen does not have;
* a block of registers is stored or loaded as a whole or not at all, while the digits of a register
  are stored one by one.
-/

import ChipEight.Font
import ChipEight.Outcome
import ChipEight.Screen.Sprite

namespace ChipEight.Machine

/-! ### Before and besides execution -/

/-- Notes a word as the last one and counts it. -/
def note (word : Word) (machine : Machine) : Machine :=
  { machine with control :=
      { machine.control with lastWord := word, cycles := machine.control.cycles + 1 } }

/-- Reports and refuses the word that was fetched last. -/
def unknown (word : Word) (machine : Machine) : Outcome Unit :=
  (Outcome.refused (.unknownWord word) machine).reporting
    (.unknownWord (machine.registers.pc - 2) word)

/-! ### Calls, returns and jumps -/

/-- Takes the counter from the stack. The pointer is lowered before the slot is read. -/
def returnFromCall (machine : Machine) : Outcome Unit :=
  let lowered := machine.mapRegisters fun registers => { registers with sp := registers.sp - 1 }
  match lowered.registers.stack[lowered.registers.sp.toNat]? with
  | none => .outOfBounds lowered
  | some address =>
    .done () (lowered.mapRegisters fun registers => { registers with pc := address })

/-- Puts the counter on the stack and moves it to the target. -/
def call (target : UInt16) (machine : Machine) : Outcome Unit :=
  if machine.registers.sp.toNat < 12 then
    .done () (machine.mapRegisters fun registers =>
      { registers with
        stack := registers.stack.setIfInBounds registers.sp.toNat registers.pc
        sp := registers.sp + 1
        pc := target })
  else .outOfBounds machine

/-- The counter at a target. -/
def jump (target : UInt16) (machine : Machine) : Machine :=
  machine.mapRegisters fun registers => { registers with pc := target }

/-- Family zero: clears the screen, returns from a call, or does nothing. -/
def executeSystem (word : Word) (machine : Machine) : Outcome Unit :=
  match word.address.toNat with
  | 0x0e0 => .done () { machine with screen := machine.screen.erase }
  | 0x0ee => machine.returnFromCall
  | _ => .done () machine

/-! ### Arithmetic on two registers -/

/-- The registers after the arithmetic operation that a digit selects. Operands are read before
anything is written, and the result is written before the flag, so the flag prevails where the first
register is the flag itself. -/
def arithmetic? (x y : Fin 16) (registers : Registers) : Nat → Option Registers :=
  let a := registers.get x
  let b := registers.get y
  fun
  | 0x0 => some (registers.set x b)
  | 0x1 => some (registers.set x (a ||| b))
  | 0x2 => some (registers.set x (a &&& b))
  | 0x3 => some (registers.set x (a ^^^ b))
  | 0x4 => some (registers.setWithFlag x (a + b) (256 ≤ a.toNat + b.toNat))
  | 0x5 => some (registers.setWithFlag x (a - b) (a < b))
  | 0x6 => some (registers.setWithFlag x (a / 2) (a % 2 = 1))
  | 0x7 => some (registers.setWithFlag x (b - a) (a < b))
  | 0x8 => some (registers.setWithFlag x (a + a) (128 ≤ a))
  | 0xe => some (registers.setWithFlag x (a + a) (128 ≤ a))
  | _ => none

/-- Family eight: arithmetic on two registers. -/
def executeArithmetic (word : Word) (machine : Machine) : Outcome Unit :=
  match arithmetic? word.x word.y machine.registers word.n with
  | none => machine.unknown word
  | some registers => .done () { machine with registers }

/-! ### Sprites -/

/-- Draws the sprite at the index register. The rows that memory does not hold are out of bounds,
and those before them are drawn; the flag is set by a collision and never cleared. -/
def draw (x y : Fin 16) (height : Nat) (machine : Machine) : Outcome Unit :=
  let sprite := machine.memory.available machine.registers.index.toNat height
  let targets := Sprite.targets machine.variant.wrapSprites (machine.get x).toNat
    (machine.get y).toNat sprite
  let drawing := machine.screen.flipAll targets
  let drawn := { machine with
    screen := drawing.screen
    registers := machine.registers.raiseFlagIf drawing.collided }
  if drawing.complete && sprite.length == height then .done () drawn else .outOfBounds drawn

/-! ### Keys -/

/-- The key that a register names by its low four bits. -/
def keyIn (x : Fin 16) (machine : Machine) : Fin 16 :=
  ⟨(machine.get x).toNat % 16, Nat.mod_lt _ (by decide)⟩

/-- Family fourteen: skips by the state of a key. -/
def executeKey (word : Word) (machine : Machine) : Outcome Unit :=
  let down := machine.registers.isDown (machine.keyIn word.x)
  match word.immediate.toNat with
  | 0x9e => .done () (machine.mapRegisters (·.skipIf down))
  | 0xa1 => .done () (machine.mapRegisters (·.skipIf !down))
  | _ => machine.unknown word

/-- Begins to wait for a key. -/
def awaitKey (x : Fin 16) (machine : Machine) : Outcome Unit :=
  (Outcome.done () { machine with control.settings.waiting := true }).reporting (.awaitingKey x)

/-! ### Transfers between registers and memory -/

/-- The three decimal digits of a byte, the hundreds first. -/
def decimalDigits (value : UInt8) : List UInt8 :=
  [value / 100 % 10, value / 10 % 10, value % 10]

/-- Stores the decimal digits of a register at the index register, one by one. -/
def storeDigits (x : Fin 16) (machine : Machine) : Outcome Unit :=
  let (memory, complete) :=
    machine.memory.storeEach machine.registers.index.toNat (decimalDigits (machine.get x))
  let stored := { machine with memory }
  if complete then .done () stored else .outOfBounds stored

/-- Moves the index register behind a block of registers, if the variant asks for it. -/
def passBlock (x : Fin 16) (machine : Machine) : Machine :=
  if machine.variant.advanceIndex then
    machine.mapRegisters (·.advanceIndex (UInt16.ofNat (x.val + 1)))
  else machine

/-- Stores the registers up to `x` at the index register, all of them or none. -/
def storeRegisters (x : Fin 16) (machine : Machine) : Outcome Unit :=
  match machine.memory.splice? machine.registers.index.toNat (machine.registers.first (x + 1)) with
  | none => .outOfBounds machine
  | some memory => .done () ({ machine with memory }.passBlock x)

/-- Loads the registers up to `x` from the index register, all of them or none. -/
def loadRegisters (x : Fin 16) (machine : Machine) : Outcome Unit :=
  let start := machine.registers.index.toNat
  match machine.memory.slice? start (start + x + 1) with
  | none => .outOfBounds machine
  | some bytes => .done () ((machine.mapRegisters (·.setFirst bytes)).passBlock x)

/-! ### Timers, the index register and random bytes -/

/-- Sets a register to the next random byte under a mask. -/
def random (x : Fin 16) (mask : UInt8) (machine : Machine) : Machine :=
  let (byte, source) := machine.source.next
  { machine with registers := machine.registers.set x (byte &&& mask), source }

/-- Family fifteen: timers, the index register and transfers. -/
def executeDevice (word : Word) (machine : Machine) : Outcome Unit :=
  let x := word.x
  let value := machine.get x
  match word.immediate.toNat with
  | 0x07 => .done () (machine.mapRegisters fun registers => registers.set x registers.delay)
  | 0x0a => machine.awaitKey x
  | 0x15 => .done () (machine.mapRegisters fun registers => { registers with delay := value })
  | 0x18 => .done () (machine.mapRegisters fun registers => { registers with sound := value })
  | 0x1e => .done () (machine.mapRegisters (·.advanceIndex value.toUInt16))
  | 0x29 => .done () (machine.mapRegisters fun registers =>
      { registers with index := UInt16.ofNat (value.toNat * Font.glyphSize) })
  | 0x33 => machine.storeDigits x
  | 0x55 => machine.storeRegisters x
  | 0x65 => machine.loadRegisters x
  | _ => machine.unknown word

/-! ### All words -/

/-- Carries out a word. -/
def perform (word : Word) (machine : Machine) : Outcome Unit :=
  let x := word.x
  let y := word.y
  match word.family with
  | 0x0 => machine.executeSystem word
  | 0x1 => .done () (machine.jump word.address)
  | 0x2 => machine.call word.address
  | 0x3 => .done () (machine.mapRegisters (·.skipIf (machine.get x == word.immediate)))
  | 0x4 => .done () (machine.mapRegisters (·.skipIf (machine.get x != word.immediate)))
  | 0x5 => .done () (machine.mapRegisters (·.skipIf (machine.get x == machine.get y)))
  | 0x6 => .done () (machine.mapRegisters (·.set x word.immediate))
  | 0x7 => .done () (machine.mapRegisters (·.set x (machine.get x + word.immediate)))
  | 0x8 => machine.executeArithmetic word
  | 0x9 => .done () (machine.mapRegisters (·.skipIf (machine.get x != machine.get y)))
  | 0xa => .done () (machine.mapRegisters fun registers => { registers with index := word.address })
  | 0xb => .done () (machine.jump ((machine.get Registers.zero).toUInt16 + word.address))
  | 0xc => .done () (machine.random x word.immediate)
  | 0xd => machine.draw x y word.n
  | 0xe => machine.executeKey word
  | _ => machine.executeDevice word

/-- Notes, counts and carries out a word. -/
def execute (word : Word) (machine : Machine) : Outcome Unit :=
  (machine.note word).perform word

end ChipEight.Machine
