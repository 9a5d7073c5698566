/-
**Disassembly of single words.**

Every word has a text: that of its instruction, `sys` and an address for the machine calls of family
zero, and `inval` with the whole word for all others. A palette styles known and unknown words.
-/

import ChipEight.Instruction.Assembly
import ChipEight.Instruction.Encoding
import ChipEight.Text.Layout

namespace ChipEight

/-- How known and unknown words are styled in a listing. -/
structure Palette where
  known : Style
  unknown : Style
deriving DecidableEq

namespace Palette

/-- No styling at all. -/
def plain : Palette := ⟨.plain, .plain⟩

/-- Green for known words and bold red for unknown ones. -/
def coloured : Palette := ⟨.green, .boldRed⟩

end Palette

namespace Word

/-- The text of a word under a palette. -/
def disassemble (palette : Palette) (word : Word) : String :=
  match Instruction.decode? word with
  | some instruction => palette.known.apply instruction.text
  | none =>
    if word.family = 0 then palette.known.apply ("sys    " ++ Numeral.hex 3 word.address.toNat)
    else palette.unknown.apply ("inval  " ++ word.text)

end Word

end ChipEight
