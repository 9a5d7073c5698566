/-
**Snapshots of a machine and its parts.**

A snapshot of a machine is its stored image; each part of the image can also be stored alone. The
source of random bytes is not stored, so a part that comes with one gets a new one when it is
restored.
-/

import ChipEight.Machine.Basic
import ChipEight.Snapshot.Value

namespace ChipEight

/-! ### Parts of a machine -/

/-- A region is stored by its name, which may also be read from the only field of an object. -/
instance : Stored Region where
  store region := .text region.name
  restore?
    | .text name => Region.ofName? name
    | .object [(name, .null)] => Region.ofName? name
    | _ => none

instance : Recorded Variant where
  names := ["dma_inc", "screen_wrap"]
  fields variant := [store variant.advanceIndex, store variant.wrapSprites]
  ofEntries? entries := do
    let advanceIndex ← Value.field? entries "dma_inc"
    let wrapSprites ← Value.field? entries "screen_wrap"
    return { advanceIndex, wrapSprites }

instance : Recorded Settings where
  names := ["debug", "keypause", "quirks"]
  fields settings := [store settings.debug, store settings.waiting, store settings.variant]
  ofEntries? entries := do
    let debug ← Value.field? entries "debug"
    let waiting ← Value.field? entries "keypause"
    let variant ← Value.field? entries "quirks"
    return { debug, waiting, variant }

instance : Recorded Control where
  names := ["flags", "opcode", "cycle"]
  fields control := [store control.settings, store control.lastWord, store control.cycles]
  ofEntries? entries := do
    let settings ← Value.field? entries "flags"
    let lastWord ← Value.field? entries "opcode"
    let cycles ← Value.field? entries "cycle"
    return { settings, lastWord, cycles }

instance : Recorded Memory where
  names := ["memory"]
  fields memory := [store memory.bytes]
  ofEntries? entries := do
    let bytes ← Value.field? entries "memory"
    return { bytes }

instance : Recorded Screen where
  names := ["pixels"]
  fields screen := [store screen.pixels]
  ofEntries? entries := do
    let pixels ← Value.field? entries "pixels"
    return { pixels }

instance : Recorded Registers where
  names := ["v", "i", "delay", "sound", "pc", "sp", "stack", "keys"]
  fields registers := [
    store registers.v, store registers.index, store registers.delay, store registers.sound,
    store registers.pc, store registers.sp, store registers.stack, store registers.keys]
  ofEntries? entries := do
    let v ← Value.field? entries "v"
    let index ← Value.field? entries "i"
    let delay ← Value.field? entries "delay"
    let sound ← Value.field? entries "sound"
    let pc ← Value.field? entries "pc"
    let sp ← Value.field? entries "sp"
    let stack ← Value.field? entries "stack"
    let keys ← Value.field? entries "keys"
    return { v, index, delay, sound, pc, sp, stack, keys }

instance : Recorded Image where
  names := ["cpu", "mem", "state", "screen", "loaded"]
  fields image := [
    store image.control, store image.memory, store image.registers, store image.screen,
    store image.loaded]
  ofEntries? entries := do
    let control ← Value.field? entries "cpu"
    let memory ← Value.field? entries "mem"
    let registers ← Value.field? entries "state"
    let screen ← Value.field? entries "screen"
    let loaded ← Value.field? entries "loaded"
    return { control, memory, registers, screen, loaded }

/-! ### Saving and restoring -/

/-- A part of a machine that can be saved and restored. -/
inductive Part where
  /-- The whole image. -/
  | image
  /-- The control unit. -/
  | control
  /-- The registers. -/
  | registers
  /-- The memory. -/
  | memory
  /-- The screen. -/
  | screen
  /-- The settings. -/
  | settings
  /-- The variant. -/
  | variant
deriving DecidableEq

namespace Part

/-- What a part consists of. -/
def Content : Part → Type
  | image => Image
  | control => Control
  | registers => Registers
  | memory => Memory
  | screen => Screen
  | settings => Settings
  | variant => Variant

instance : (part : Part) → Stored part.Content
  | image => inferInstanceAs (Stored Image)
  | control => inferInstanceAs (Stored Control)
  | registers => inferInstanceAs (Stored Registers)
  | memory => inferInstanceAs (Stored Memory)
  | screen => inferInstanceAs (Stored Screen)
  | settings => inferInstanceAs (Stored Settings)
  | variant => inferInstanceAs (Stored Variant)

end Part

namespace Machine

/-- A part of a machine. -/
def part (machine : Machine) : (part : Part) → part.Content
  | .image => machine.toImage
  | .control => machine.control
  | .registers => machine.registers
  | .memory => machine.memory
  | .screen => machine.screen
  | .settings => machine.control.settings
  | .variant => machine.variant

/-- Replaces a part of a machine. The image and the registers come with a new source of random
bytes. -/
def replacePart (machine : Machine) (source : RandomSource) : (part : Part) → part.Content → Machine
  | .image, image => { toImage := image, source }
  | .control, control => { machine with control }
  | .registers, registers => { machine with registers, source }
  | .memory, memory => { machine with memory }
  | .screen, screen => { machine with screen }
  | .settings, settings => { machine with control.settings := settings }
  | .variant, variant => { machine with control.settings.variant := variant }

/-- The stored form of a part of a machine. -/
def save (machine : Machine) (part : Part) : Value :=
  store (machine.part part)

/-- Replaces a part of a machine by the one that a value stores; tells whether it stores one. If it
does not, nothing is replaced. -/
def restorePart (machine : Machine) (part : Part) (value : Value) (source : RandomSource) :
    Bool × Machine :=
  match restore? value with
  | none => (false, machine)
  | some content => (true, machine.replacePart source part content)

end Machine

end ChipEight
