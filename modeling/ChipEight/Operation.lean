/-
**Operations.**

Everything that can change a machine, as data: the calls of a host, the steps of the engine, and
direct changes to settings, registers, memory and screen. `Operation.perform` carries one out and
`Machine.performAll` a whole list, going on after failures with the machine that they left.
-/

import ChipEight.Machine.Host

namespace ChipEight

/-- A change to a machine. -/
inductive Operation where
  | tick
  | loadProgram (program : Array UInt8)
  | loadFont (font : Array UInt8)
  | press (key : Nat)
  | release (key : Nat)
  /-- Set a byte register by its number. -/
  | setRegister (register : Nat) (value : UInt8)
  | tickTimers
  /-- Reset the machine; its random bytes come from another source. -/
  | reset (source : RandomSource)
  /-- Fetch a word without executing it. -/
  | fetch
  /-- Execute a word without fetching it. -/
  | execute (word : Word)
  /-- Look for a key, whether or not the machine waits for one. -/
  | pollKeys
  | resetControl
  /-- Replace the control unit by a new one. -/
  | newControl (settings : Settings)
  | toggleDebug
  | setSettings (settings : Settings)
  | setVariant (variant : Variant)
  | setBytes (v : Vector UInt8 16)
  | setIndex (value : UInt16)
  | setCounter (value : UInt16)
  | setPointer (value : UInt16)
  | setDelay (value : UInt8)
  | setSound (value : UInt8)
  | setSlot (slot : Nat) (value : UInt16)
  | setKey (key : Nat) (down : Bool)
  /-- Replace the registers by blank ones; the random bytes come from another source. -/
  | resetRegisters (source : RandomSource)
  /-- Take the random bytes of a seed from now on. -/
  | reseed (seed : UInt64)
  | random (count : Nat)
  | store (address : Nat) (value : UInt8)
  /-- Overwrite a range of memory if it exists. -/
  | overwrite (start : Nat) (data : Array UInt8)
  | loadRegion (region : Region) (payload : Array UInt8)
  | clearRegion (region : Region)
  | eraseMemory
  | setPixel (index : Nat) (value : Bool)
  /-- Flip a pixel, or leave it. -/
  | togglePixel (index : Nat) (value : Bool)
  | eraseScreen

/-- The answer to an operation that succeeded. -/
inductive Answer where
  | done
  | truth (value : Bool)
  | word (value : Word)
  | bytes (values : List UInt8)
deriving DecidableEq

namespace Outcome

/-- Answers nothing but the success. -/
def plain (outcome : Outcome Unit) : Outcome Answer :=
  outcome.map fun _ => .done

/-- Answers yes or no. -/
def truth (outcome : Outcome Bool) : Outcome Answer :=
  outcome.map .truth

end Outcome

namespace Operation

/-- A change that can not fail. -/
def change (machine : Machine) : Outcome Answer :=
  .done .done machine

/-- A change to the settings. -/
def changeSettings (machine : Machine) (settings : Settings) : Outcome Answer :=
  change { machine with control.settings := settings }

/-- A change to the registers. -/
def changeRegisters (machine : Machine) (registers : Registers) : Outcome Answer :=
  change { machine with registers }

/-- A change to memory that may be out of bounds. -/
def changeMemory (machine : Machine) : Option Memory → Outcome Answer
  | none => .outOfBounds machine
  | some memory => change { machine with memory }

/-- Carries out an operation. -/
def perform (machine : Machine) : Operation → Outcome Answer
  | tick => machine.tick.plain
  | loadProgram program => (machine.loadProgram program).plain
  | loadFont font => (machine.loadFont font).plain
  | press key => (machine.press key).truth
  | release key => (machine.release key).truth
  | setRegister register value => (machine.setRegister register value).plain
  | tickTimers => change machine.tickTimers
  | reset source => change (machine.reset source)
  | fetch =>
    match machine.fetch? with
    | none => .outOfBounds machine
    | some (word, fetched) => .done (.word word) fetched
  | execute word => (machine.execute word).plain
  | pollKeys => machine.pollKeys.truth
  | resetControl => change { machine with control := machine.control.reset }
  | newControl settings => change { machine with control := .ofSettings settings }
  | toggleDebug =>
    changeSettings machine
      { machine.control.settings with debug := !machine.control.settings.debug }
  | setSettings settings => changeSettings machine settings
  | setVariant variant => changeSettings machine { machine.control.settings with variant }
  | setBytes v => changeRegisters machine { machine.registers with v }
  | setIndex value => changeRegisters machine { machine.registers with index := value }
  | setCounter value => changeRegisters machine { machine.registers with pc := value }
  | setPointer value => changeRegisters machine { machine.registers with sp := value }
  | setDelay value => changeRegisters machine { machine.registers with delay := value }
  | setSound value => changeRegisters machine { machine.registers with sound := value }
  | setSlot slot value =>
    if slot < 12 then
      changeRegisters machine
        { machine.registers with stack := machine.registers.stack.setIfInBounds slot value }
    else .outOfBounds machine
  | setKey key down =>
    if inside : key < 16 then changeRegisters machine (machine.registers.setKey ⟨key, inside⟩ down)
    else .outOfBounds machine
  | resetRegisters source => change { machine with registers := .blank, source }
  | reseed seed => change { machine with source := .ofSeed seed }
  | random count =>
    let (bytes, source) := machine.source.take count
    .done (.bytes bytes) { machine with source }
  | store address value => changeMemory machine (machine.memory.store? address value)
  | overwrite start data =>
    match machine.memory.splice? start data with
    | none => .done (.truth false) machine
    | some memory => .done (.truth true) { machine with memory }
  | loadRegion region payload => (machine.loadRegion region payload).plain
  | clearRegion region => changeMemory machine (machine.memory.clearRegion? region)
  | eraseMemory => change { machine with memory := machine.memory.erase }
  | setPixel index value =>
    match machine.screen.setPixel? index value with
    | none => .outOfBounds machine
    | some screen => change { machine with screen }
  | togglePixel index value =>
    match machine.screen.toggle? index value with
    | none => .outOfBounds machine
    | some (screen, wentDark) => .done (.truth wentDark) { machine with screen }
  | eraseScreen => change { machine with screen := machine.screen.erase }

end Operation

/-- What a list of operations answered and reported, one entry each, and the machine at the end. -/
structure Session where
  answers : List (Except Failure Answer × List LogEntry)
  machine : Machine

/-- Carries out operations one after the other; a failure does not end the session. -/
def Machine.performAll (machine : Machine) : List Operation → Session
  | [] => ⟨[], machine⟩
  | operation :: rest =>
    let outcome := operation.perform machine
    let session := outcome.machine.performAll rest
    { session with answers := (outcome.answer, outcome.log) :: session.answers }

end ChipEight
