/-
**What a host does with a machine.**

A host loads programs and fonts, presses and releases keys, sets registers, lets the timers run
down and resets the machine. Keys and registers are named by number here, and a number that names
none is refused. A load either does all of its work or none.
-/

import ChipEight.Machine.Cycle

namespace ChipEight.Machine

/-! ### Loading -/

/-- Loads a program, clears everything behind it, restores the font and points the counter at the
first instruction. -/
def loadProgram (program : Array UInt8) (machine : Machine) : Outcome Unit :=
  match machine.memory.load .program program with
  | .error failure => ⟨.error failure, machine, []⟩
  | .ok loaded =>
    let cleared := loaded.clearFrom (Region.program.start + program.size)
    match cleared.load .charset Font.bytes with
    | .error failure => ⟨.error failure, { machine with memory := cleared }, []⟩
    | .ok memory =>
      .done () { machine with
        memory
        registers.pc := UInt16.ofNat Region.program.start
        loaded := true }

/-- Loads a payload into a region of memory. -/
def loadRegion (region : Region) (payload : Array UInt8) (machine : Machine) : Outcome Unit :=
  match machine.memory.load region payload with
  | .error failure => ⟨.error failure, machine, []⟩
  | .ok memory => .done () { machine with memory }

/-- Loads a font. -/
def loadFont (font : Array UInt8) (machine : Machine) : Outcome Unit :=
  machine.loadRegion .charset font

/-! ### Keys, registers and timers -/

/-- Puts a key down or lets it up; answers whether that changed anything. -/
def setKey (key : Nat) (down : Bool) (machine : Machine) : Outcome Bool :=
  if inside : key < 16 then
    .done (machine.registers.isDown ⟨key, inside⟩ != down)
      (machine.mapRegisters (·.setKey ⟨key, inside⟩ down))
  else .refused (.noSuchKey key) machine

/-- Presses a key; answers whether it was up. -/
def press (key : Nat) (machine : Machine) : Outcome Bool :=
  machine.setKey key true

/-- Releases a key; answers whether it was down. -/
def release (key : Nat) (machine : Machine) : Outcome Bool :=
  machine.setKey key false

/-- Sets a byte register. -/
def setRegister (register : Nat) (value : UInt8) (machine : Machine) : Outcome Unit :=
  if inside : register < 16 then .done () (machine.mapRegisters (·.set ⟨register, inside⟩ value))
  else .refused (.noSuchRegister register) machine

/-- Lets the timers run down by one. -/
def tickTimers (machine : Machine) : Machine :=
  machine.mapRegisters (·.tickTimers)

/-- Whether the sound timer is running. -/
def isSounding (machine : Machine) : Bool :=
  0 < machine.registers.sound

/-! ### Reset -/

/-- Returns a machine to the state of a new one with the given source. Debugging and variant stay,
and memory and screen keep their size. -/
def reset (source : RandomSource) (machine : Machine) : Machine where
  control := machine.control.reset
  memory := machine.memory.erase
  registers := .blank
  screen := machine.screen.erase
  loaded := false
  source

end ChipEight.Machine
