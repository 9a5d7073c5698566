/-
**Hexadecimal dumps of memory.**

A dump shows the bytes of a range in lines of sixteen. Each line starts with the address of its
first byte; a space follows every second byte and two spaces the eighth. Lines are counted from the
start of the range, so a range may begin anywhere.
-/

import ChipEight.Memory.Basic
import ChipEight.Text.Layout

namespace ChipEight.Memory

/-- What starts a line: the address and a colon, styled, and a space. -/
def lineHead (address : Nat) : String :=
  Style.phosphor.apply (Numeral.hex 3 address) ++ Style.phosphor.apply ":" ++ " "

/-- What follows a byte, by its place in the line. -/
def gap (place : Nat) : String :=
  if place = 15 then "\n" else if place = 7 then "  " else if place % 2 = 1 then " " else ""

/-- The part of a dump for the byte at an index from the start of the range. -/
def dumpByte (start index : Nat) (byte : UInt8) : String :=
  (if index % 16 = 0 then lineHead (start + index) else "")
    ++ Numeral.hex 2 byte.toNat ++ gap (index % 16)

/-- The dump of a row of bytes whose first one has the given address. -/
def dumpBytes (start : Nat) (bytes : List UInt8) : String :=
  String.join (bytes.zipIdx.map fun (byte, index) => dumpByte start index byte)

/-- The dump of a range of memory. -/
def dumpRange? (memory : Memory) (start stop : Nat) : Option String :=
  (memory.slice? start stop).map fun bytes => dumpBytes start bytes.toList

/-- The dump of the whole memory. -/
def dump (memory : Memory) : String :=
  dumpBytes 0 memory.bytes.toList

end ChipEight.Memory
