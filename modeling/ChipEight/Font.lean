/-
**The built-in font.**

Sixteen glyphs, one for each hexadecimal digit. A glyph is five bytes, one for each row of pixels,
the leftmost pixel in the highest bit; the glyphs lie one after the other.
-/

namespace ChipEight.Font

/-- The number of bytes in a glyph. -/
def glyphSize : Nat := 5

/-- The glyphs of the sixteen digits, zero first. -/
def glyphs : List (List UInt8) :=
  [[0xf0, 0x90, 0x90, 0x90, 0xf0],
   [0x20, 0x60, 0x20, 0x20, 0x70],
   [0xf0, 0x10, 0xf0, 0x80, 0xf0],
   [0xf0, 0x10, 0xf0, 0x10, 0xf0],
   [0x90, 0x90, 0xf0, 0x10, 0x10],
   [0xf0, 0x80, 0xf0, 0x10, 0xf0],
   [0xf0, 0x80, 0xf0, 0x90, 0xf0],
   [0xf0, 0x10, 0x20, 0x40, 0x40],
   [0xf0, 0x90, 0xf0, 0x90, 0xf0],
   [0xf0, 0x90, 0xf0, 0x10, 0xf0],
   [0xf0, 0x90, 0xf0, 0x90, 0x90],
   [0xe0, 0x90, 0xe0, 0x90, 0xe0],
   [0xf0, 0x80, 0x80, 0x80, 0xf0],
   [0xe0, 0x90, 0x90, 0x90, 0xe0],
   [0xf0, 0x80, 0xf0, 0x80, 0xf0],
   [0xf0, 0x80, 0xf0, 0x80, 0x80]]

/-- The bytes of the font. -/
def bytes : Array UInt8 :=
  glyphs.flatten.toArray

end ChipEight.Font
