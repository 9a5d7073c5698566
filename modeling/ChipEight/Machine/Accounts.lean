/-
**Accounts of the parts of a machine.**

Registers, settings and variant are described field by field. Memory and screen are described by a
single number and withhold their contents; a word is described by its value.
-/

import ChipEight.Memory.Basic
import ChipEight.Registers
import ChipEight.Screen.Basic
import ChipEight.Settings
import ChipEight.Text.Account

namespace ChipEight

/-! ### Registers and settings -/

/-- The account of a register file, which is left open at its end. -/
def Registers.account (registers : Registers) : Account :=
  .record "State" ["v", "i", "delay", "sound", "pc", "sp", "stack", "keys"]
    [.list (registers.v.toList.map fun value => .number value.toNat),
      .number registers.index.toNat, .number registers.delay.toNat, .number registers.sound.toNat,
      .number registers.pc.toNat, .number registers.sp.toNat,
      .list (registers.stack.toList.map fun address => .number address.toNat),
      .list (registers.keys.toList.map .truth)]
    true

/-- The account of a variant. -/
def Variant.account (variant : Variant) : Account :=
  .record "Quirks" ["dma_inc", "screen_wrap"]
    [.truth variant.advanceIndex, .truth variant.wrapSprites] false

/-- The account of settings. -/
def Settings.account (settings : Settings) : Account :=
  .record "Flags" ["debug", "keypause", "quirks"]
    [.truth settings.debug, .truth settings.waiting, settings.variant.account] false

/-! ### Memory, screen and words -/

/-- The account of a memory: its size. -/
def Memory.account (memory : Memory) : Account :=
  .record "Mem" ["len"] [.number memory.size] true

/-- The account of a screen: how many pixels are on. -/
def Screen.account (screen : Screen) : Account :=
  .record "Screen" ["lit"] [.number screen.lit] true

/-- The account of a word: its value. -/
def Word.account (word : Word) : Account :=
  .tuple "Opcode" [.number word.toNat]

end ChipEight
