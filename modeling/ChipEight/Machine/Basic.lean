/-
**The machine.**

A machine consists of its image, which can be saved and compared, and of its source of random
bytes, which can not. Two machines with the same image behave alike until one of them takes a
random byte.
-/

import ChipEight.Memory.Basic
import ChipEight.Random
import ChipEight.Registers
import ChipEight.Screen.Basic
import ChipEight.Settings

namespace ChipEight

/-- The control unit: the settings, the last word that was executed, and how many were. -/
structure Control where
  settings : Settings
  lastWord : Word
  cycles : UInt64
deriving DecidableEq

namespace Control

/-- A control unit that has executed nothing. -/
def ofSettings (settings : Settings) : Control :=
  ⟨settings, 0, 0⟩

/-- Forgets what was executed and ends a wait for a key; the other settings stay. -/
def reset (control : Control) : Control :=
  ofSettings { control.settings with waiting := false }

end Control

/-- The part of a machine that is saved and compared. -/
structure Image where
  control : Control
  memory : Memory
  registers : Registers
  screen : Screen
  /-- Whether a program has been loaded. -/
  loaded : Bool
deriving DecidableEq

/-- A new machine without its source of random bytes. -/
def Image.blank : Image where
  control := .ofSettings .standard
  memory := .blank
  registers := .blank
  screen := .blank
  loaded := false

/-- A machine. -/
structure Machine extends Image where
  source : RandomSource
deriving DecidableEq

namespace Machine

/-- A new machine whose random bytes come from a source. -/
def new (source : RandomSource) : Machine :=
  { Image.blank with source }

/-- Whether the machine waits for a key. -/
def isWaiting (machine : Machine) : Bool :=
  machine.control.settings.waiting

/-- The variant of the instruction set. -/
def variant (machine : Machine) : Variant :=
  machine.control.settings.variant

/-- The value of a byte register. -/
def get (machine : Machine) (register : Fin 16) : UInt8 :=
  machine.registers.get register

/-- Changes the register file. -/
def mapRegisters (machine : Machine) (change : Registers → Registers) : Machine :=
  { machine with registers := change machine.registers }

end Machine

end ChipEight
