/-
**The register file.**

Sixteen byte registers, the index register, two timers, the counter, a stack of twelve return
addresses with its pointer, and the state of the sixteen keys. The last byte register is also the
flag: an instruction that sets it does so after it has written its result.
-/

namespace ChipEight

/-- The registers, timers, stack and keys of a machine. -/
structure Registers where
  /-- The byte registers. -/
  v : Vector UInt8 16
  /-- The index register, an address. -/
  index : UInt16
  /-- The delay timer. -/
  delay : UInt8
  /-- The sound timer. -/
  sound : UInt8
  /-- The counter: the address of the next instruction. -/
  pc : UInt16
  /-- The number of the next free slot of the stack. -/
  sp : UInt16
  /-- The return addresses. -/
  stack : Vector UInt16 12
  /-- Which keys are down. -/
  keys : Vector Bool 16
deriving DecidableEq

namespace Registers

/-- All zero, with every key up. -/
def blank : Registers where
  v := Vector.replicate 16 0
  index := 0
  delay := 0
  sound := 0
  pc := 0
  sp := 0
  stack := Vector.replicate 12 0
  keys := Vector.replicate 16 false

/-! ### Byte registers -/

/-- The first byte register. -/
def zero : Fin 16 := ⟨0, by decide⟩

/-- The byte register that is also the flag. -/
def flag : Fin 16 := ⟨15, by decide⟩

/-- The value of a byte register. -/
def get (registers : Registers) (register : Fin 16) : UInt8 :=
  registers.v.get register

/-- Sets a byte register. -/
def set (registers : Registers) (register : Fin 16) (value : UInt8) : Registers :=
  { registers with v := registers.v.setIfInBounds register value }

/-- Sets a byte register and then the flag. -/
def setWithFlag (registers : Registers) (register : Fin 16) (value : UInt8) (carry : Bool) :
    Registers :=
  (registers.set register value).set flag carry.toUInt8

/-- Sets the flag to one if the condition holds, and leaves it otherwise. -/
def raiseFlagIf (registers : Registers) (condition : Bool) : Registers :=
  if condition then registers.set flag 1 else registers

/-- The first few byte registers. -/
def first (registers : Registers) (count : Nat) : Array UInt8 :=
  registers.v.toArray.extract 0 count

/-- Sets the first byte registers to the given bytes and leaves the others. -/
def setFirst (registers : Registers) (bytes : Array UInt8) : Registers :=
  { registers with
    v := Vector.ofFn fun register => bytes[register.val]?.getD (registers.get register) }

/-! ### Counter, index and timers -/

/-- Moves the counter over one instruction. -/
def skip (registers : Registers) : Registers :=
  { registers with pc := registers.pc + 2 }

/-- Moves the counter over one instruction if the condition holds. -/
def skipIf (registers : Registers) (condition : Bool) : Registers :=
  if condition then registers.skip else registers

/-- Moves the index register up. -/
def advanceIndex (registers : Registers) (distance : UInt16) : Registers :=
  { registers with index := registers.index + distance }

/-- Lets both timers run down by one; they stop at zero. -/
def tickTimers (registers : Registers) : Registers :=
  { registers with
    delay := if registers.delay = 0 then 0 else registers.delay - 1
    sound := if registers.sound = 0 then 0 else registers.sound - 1 }

/-! ### Keys -/

/-- Whether a key is down. -/
def isDown (registers : Registers) (key : Fin 16) : Bool :=
  registers.keys.get key

/-- Puts a key down or lets it up. -/
def setKey (registers : Registers) (key : Fin 16) (down : Bool) : Registers :=
  { registers with keys := registers.keys.setIfInBounds key down }

/-- The lowest key that is down. -/
def firstKey? (registers : Registers) : Option (Fin 16) :=
  (List.finRange 16).find? registers.isDown

end Registers

end ChipEight
