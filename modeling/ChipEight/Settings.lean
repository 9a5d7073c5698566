/-
**Settings.**

What steers a machine without being part of it: whether it reports each instruction, whether it
waits for a key, and the variant of the instruction set. Settings are ordered field by field, with
`false` before `true`.
-/

namespace ChipEight

/-- The points on which interpreters of the instruction set differ. -/
structure Variant where
  /-- Whether a block transfer moves the index register behind the block. -/
  advanceIndex : Bool
  /-- Whether sprites wrap around at the edges, rather than run on through all pixels. -/
  wrapSprites : Bool
deriving DecidableEq, Ord

/-- The variant that decides both points the same way. -/
def Variant.uniform (value : Bool) : Variant :=
  ⟨value, value⟩

/-- The settings of a machine. -/
structure Settings where
  /-- Whether each instruction is reported before it runs. -/
  debug : Bool
  /-- Whether the machine waits for a key. -/
  waiting : Bool
  /-- The variant of the instruction set. -/
  variant : Variant
deriving DecidableEq, Ord

/-- The settings of a new machine. -/
def Settings.standard : Settings :=
  ⟨false, false, .uniform true⟩

end ChipEight
