/-
**The two regions of memory.**

The first half kilobyte holds the character set, everything above it the program. A region is a
range of addresses; its capacity is the number of bytes in it.
-/

namespace ChipEight

/-- A named range of memory. -/
inductive Region where
  /-- The character set, at the start of memory. -/
  | charset
  /-- The program, from address 512 to the end of a standard memory. -/
  | program
deriving DecidableEq, Ord

namespace Region

/-- The first address of a region. -/
def start : Region → Nat
  | charset => 0x000
  | program => 0x200

/-- The address just behind a region. -/
def stop : Region → Nat
  | charset => 0x200
  | program => 0x1000

/-- The number of bytes in a region. -/
def capacity (region : Region) : Nat :=
  region.stop - region.start

/-- The name of a region. -/
def name : Region → String
  | charset => "Charset"
  | program => "Program"

/-- The region of a given name. -/
def ofName? : String → Option Region
  | "Charset" => some charset
  | "Program" => some program
  | _ => none

end Region

end ChipEight
