/-
**The screen.**

A screen is a row of pixels, read line by line. A new one has 64 columns and 32 lines. As with
memory, a row of any length is a screen, and an index past its end reaches no pixel.
-/

namespace ChipEight

/-- A row of pixels, `true` for one that is on. -/
structure Screen where
  pixels : Array Bool
deriving DecidableEq

namespace Screen

/-- The number of columns. -/
def width : Nat := 64

/-- The number of lines. -/
def height : Nat := 32

/-- The number of pixels of a new screen. -/
def standardSize : Nat := width * height

/-- A new screen, all dark. -/
def blank : Screen :=
  ⟨Array.replicate standardSize false⟩

/-- The number of pixels. -/
def size (screen : Screen) : Nat :=
  screen.pixels.size

/-- The same number of pixels, all dark. -/
def erase (screen : Screen) : Screen :=
  ⟨Array.replicate screen.size false⟩

/-- The number of pixels that are on. -/
def lit (screen : Screen) : Nat :=
  screen.pixels.toList.count true

/-- The pixel at an index. -/
def pixel? (screen : Screen) (index : Nat) : Option Bool :=
  screen.pixels[index]?

/-- Whether a column and a line are on the screen. -/
def Shows (column line : Nat) : Prop :=
  column < width ∧ line < height

instance (column line : Nat) : Decidable (Shows column line) :=
  inferInstanceAs (Decidable (_ ∧ _))

/-- The index of the pixel in a column and a line. -/
def index (column line : Nat) : Nat :=
  line * width + column

/-- The pixel in a column and a line, or no pixel if they are not on a screen. The outer `none`
tells that this screen is too short for its column and line. -/
def at? (screen : Screen) (column line : Nat) : Option (Option Bool) :=
  if Shows column line then (screen.pixel? (index column line)).map some else some none

/-- Turns the pixel at an index on or off. -/
def setPixel? (screen : Screen) (index : Nat) (value : Bool) : Option Screen :=
  if inside : index < screen.pixels.size then some ⟨screen.pixels.set index value inside⟩
  else none

/-- Flips the pixel at an index if `value` is set; tells whether a lit pixel went dark. -/
def toggle? (screen : Screen) (index : Nat) (value : Bool) : Option (Screen × Bool) :=
  if inside : index < screen.pixels.size then
    let pixel := screen.pixels[index]
    some (⟨screen.pixels.set index (pixel ^^ value) inside⟩, pixel && value)
  else none

end Screen

end ChipEight
