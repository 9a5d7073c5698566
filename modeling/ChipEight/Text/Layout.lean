/-
**Columns and styles.**

A text is brought to the width of a column by blanks on one side; a longer one stays as it is, and
the width counts every character, escapes included.

A style is the escape text put in front of a passage and the one put behind it. Every coloured text
of the program is some plain text with a style applied, so nothing else writes escape characters.
-/

namespace ChipEight

/-! ### Columns -/

namespace Column

/-- Some blanks. -/
def blanks (count : Nat) : String :=
  String.ofList (List.replicate count ' ')

/-- A text at the left edge of a column. -/
def left (width : Nat) (text : String) : String :=
  text ++ blanks (width - text.length)

/-- A text at the right edge of a column. -/
def right (width : Nat) (text : String) : String :=
  blanks (width - text.length) ++ text

end Column

/-! ### Styles -/

/-- A pair of escape texts that surround a styled passage. -/
structure Style where
  opening : String
  closing : String
deriving DecidableEq

namespace Style

/-- Surrounds a text with the style's escapes. -/
def apply (style : Style) (text : String) : String :=
  style.opening ++ text ++ style.closing

/-- The style that adds nothing. -/
def plain : Style := ⟨"", ""⟩

@[simp]
theorem plain_apply (text : String) : plain.apply text = text := by
  show "" ++ text ++ "" = text
  rw [String.empty_append, String.append_empty]

/-- Green, for known instructions. -/
def green : Style := ⟨"\x1b[32m", "\x1b[0m"⟩

/-- Bold red, for words that are no instruction. -/
def boldRed : Style := ⟨"\x1b[31;1m", "\x1b[0m"⟩

/-- Grey, for side notes within a line; only the colour is taken back at the end. -/
def grey : Style := ⟨"\x1b[90m", "\x1b[39m"⟩

/-- Grey for a whole block; every attribute is taken back at the end. -/
def greyBlock : Style := ⟨"\x1b[90m", "\x1b[0m"⟩

/-- Bold green on black, for the addresses of a memory dump. -/
def phosphor : Style := ⟨"\x1b[32;40;1m", "\x1b[0m"⟩

end Style

end ChipEight
