/-
**Sprites.**

A sprite is a column of bytes. Each byte is a row of eight pixels, the leftmost one in the highest
bit. Drawing flips the pixels of the screen under the set bits, row by row from left to right, and
notes whether a lit pixel went dark.

* `Sprite.target` — where a pixel of a sprite lands. Sprites either wrap around at each edge, or
  run on through the row of all pixels.
* `Screen.flipAll` — the drawing itself, which ends at the first target outside the screen.
-/

import ChipEight.Screen.Basic

namespace ChipEight

namespace Sprite

/-- Whether the bit of a row is set; bits are counted from the left. -/
def isSet (row : UInt8) (bit : Nat) : Bool :=
  row.toNat.testBit (7 - bit)

/-- The bits of a row that are set, from left to right. -/
def setBits (row : UInt8) : List Nat :=
  (List.range 8).filter (isSet row)

/-- The index of the pixel at a column and a line, which may lie past the edges. -/
def target (wrap : Bool) (column line : Nat) : Nat :=
  if wrap then Screen.index (column % Screen.width) (line % Screen.height)
  else Screen.index column line % Screen.standardSize

/-- The targets of a row of a sprite. -/
def rowTargets (wrap : Bool) (column line : Nat) (row : UInt8) : List Nat :=
  (setBits row).map fun bit => target wrap (column + bit) line

/-- The targets of the set bits of a sprite whose first pixel is at a column and a line. -/
def targets (wrap : Bool) (column : Nat) : Nat → List UInt8 → List Nat
  | _, [] => []
  | line, row :: rest => rowTargets wrap column line row ++ targets wrap column (line + 1) rest

end Sprite

/-- The state of a drawing. -/
structure Drawing where
  /-- The screen as it is now. -/
  screen : Screen
  /-- Whether a lit pixel went dark. -/
  collided : Bool
  /-- Whether every target was on the screen. -/
  complete : Bool
deriving DecidableEq

/-- Flips the pixels at the given indexes one after the other, up to the first that is outside. -/
def Screen.flipAll (screen : Screen) : List Nat → Drawing
  | [] => ⟨screen, false, true⟩
  | index :: rest =>
    match screen.toggle? index true with
    | none => ⟨screen, false, false⟩
    | some (flipped, wentDark) =>
      let drawing := flipped.flipAll rest
      { drawing with collided := wentDark || drawing.collided }

end ChipEight
