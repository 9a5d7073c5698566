/-
**Listings of programs.**

A listing shows the words of a program, one to a line: the address, the text of the word and its
four digits. It may begin at an offset into the program; a single byte at the end is not shown.
-/

import ChipEight.Disassembly

namespace ChipEight.Listing

/-- How a listing is coloured. -/
structure Colouring where
  palette : Palette
  /-- The style of the digits at the end of a line. -/
  digits : Style
deriving DecidableEq

/-- A listing without colours. -/
def Colouring.plain : Colouring := ⟨.plain, .plain⟩

/-- A listing in colours. -/
def Colouring.coloured : Colouring := ⟨.coloured, .grey⟩

/-- The words in a row of bytes; a last single byte is left out. -/
def words : List UInt8 → List Word
  | high :: low :: rest => Word.ofBytes high low :: words rest
  | _ => []

/-- The line of a word at an address. -/
def line (colouring : Colouring) (address : Nat) (word : Word) : String :=
  Numeral.hex 3 address ++ ": " ++ word.disassemble colouring.palette ++ " "
    ++ colouring.digits.apply word.text

/-- The lines of words from an address on. -/
def lines (colouring : Colouring) : Nat → List Word → List String
  | _, [] => []
  | address, word :: rest => line colouring address word :: lines colouring (address + 2) rest

/-- The lines for a program at a load address, from an offset on. -/
def ofProgram (colouring : Colouring) (loadAddress offset : Nat) (program : List UInt8) :
    List String :=
  let start := min offset program.length
  lines colouring (loadAddress + start) (words (program.drop start))

/-- The text of a listing, a line break after each line. -/
def text (lines : List String) : String :=
  String.join (lines.map (· ++ "\n"))

end ChipEight.Listing
