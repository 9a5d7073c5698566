/-
**What a machine looks like as text.**

One character of the screen shows two pixels, one above the other, so a line of text stands for two
lines of the screen. What is left of the pixels after the last full pair of lines is not shown.

The summary is the text that a host shows to a reader: pointers, byte registers in rows of four,
timers and the count of instructions, and below them the screen.
-/

import ChipEight.Machine.Basic
import ChipEight.Text.Layout
import ChipEight.Text.Numeral

namespace ChipEight

/-! ### The screen -/

namespace Screen

/-- The character for an upper and a lower pixel. -/
def block (upper lower : Bool) : Char :=
  match upper, lower with
  | true, true => '█'
  | true, false => '▀'
  | false, true => '▄'
  | false, false => ' '

/-- The characters for a pair of lines, given one after the other. -/
def textLine (pixels : List Bool) : List Char :=
  List.zipWith block (pixels.take width) (pixels.drop width)

/-- The characters for some number of pairs of lines, a line break after each. -/
def textLines : Nat → List Bool → List Char
  | 0, _ => []
  | pairs + 1, pixels =>
    textLine (pixels.take (2 * width)) ++ '\n' :: textLines pairs (pixels.drop (2 * width))

/-- The text of a screen. -/
def text (screen : Screen) : String :=
  String.ofList (textLines (screen.size / (2 * width)) screen.pixels.toList)

end Screen

/-! ### The machine -/

/-- A byte register in a summary; every fourth one ends its line. -/
def Registers.summaryOf (registers : Registers) (register : Fin 16) : String :=
  "v" ++ Numeral.upperHex register ++ ": " ++ Numeral.hex 2 (registers.get register).toNat
    ++ if register.val % 4 = 3 then "\n" else "  "

/-- The text of the registers and of the count of instructions. -/
def Machine.registerText (machine : Machine) : String :=
  let registers := machine.registers
  "PC: " ++ Numeral.hex 4 registers.pc.toNat ++ ", SP: " ++ Numeral.hex 4 registers.sp.toNat
    ++ ", I: " ++ Numeral.hex 4 registers.index.toNat ++ "\n"
    ++ String.join ((List.finRange 16).map registers.summaryOf)
    ++ "DLY: " ++ Numeral.decimal registers.delay.toNat
    ++ ", SND: " ++ Numeral.decimal registers.sound.toNat
    ++ ", CYC: " ++ Column.right 6 (Numeral.decimal machine.control.cycles.toNat) ++ "\n"

/-- The summary of a machine. -/
def Machine.summary (machine : Machine) : String :=
  Style.greyBlock.apply machine.registerText ++ machine.screen.text

end ChipEight
