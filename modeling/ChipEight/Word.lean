/-
**Instruction words and their fields.**

A word is sixteen bits, stored in memory with the high byte first. Its four hexadecimal digits are
the family and the digits `x`, `y` and `n`; the last two digits together are the immediate byte, the
last three the address. Words are put together from the same fields by `Word.withAddress`,
`Word.withByte` and `Word.withDigits`, which drop whatever does not fit a field.
-/

import ChipEight.Text.Numeral

namespace ChipEight

/-- An instruction word. -/
abbrev Word := UInt16

namespace Word

/-! ### Fields -/

/-- The first digit, which selects the family of the instruction. -/
def family (word : Word) : Nat :=
  word.toNat / 4096

/-- The second digit, the first register of an instruction. -/
def x (word : Word) : Fin 16 :=
  ⟨word.toNat / 256 % 16, Nat.mod_lt _ (by decide)⟩

/-- The third digit, the second register of an instruction. -/
def y (word : Word) : Fin 16 :=
  ⟨word.toNat / 16 % 16, Nat.mod_lt _ (by decide)⟩

/-- The last digit: an operation within a family, or the height of a sprite. -/
def n (word : Word) : Nat :=
  word.toNat % 16

/-- The last two digits, an immediate operand. -/
def immediate (word : Word) : UInt8 :=
  word.toUInt8

/-- The last three digits, an address. -/
def address (word : Word) : UInt16 :=
  UInt16.ofNat (word.toNat % 4096)

/-- Four hexadecimal digits. -/
def text (word : Word) : String :=
  Numeral.hex 4 word.toNat

/-! ### Bytes -/

/-- The word stored as two bytes, high byte first. -/
def ofBytes (high low : UInt8) : Word :=
  UInt16.ofNat (high.toNat * 256 + low.toNat)

/-- The byte stored first. -/
def highByte (word : Word) : UInt8 :=
  UInt8.ofNat (word.toNat / 256)

/-- The byte stored second. -/
def lowByte (word : Word) : UInt8 :=
  word.toUInt8

/-! ### Words from fields -/

/-- A family and the low twelve bits of an address. -/
def withAddress (family : Nat) (address : UInt16) : Word :=
  UInt16.ofNat (family * 4096 + address.toNat % 4096)

/-- A family, the low four bits of a register number, and a byte. -/
def withByte (family x : Nat) (byte : UInt8) : Word :=
  UInt16.ofNat (family * 4096 + x % 16 * 256 + byte.toNat)

/-- A family and the low four bits of each of three digits. -/
def withDigits (family x y n : Nat) : Word :=
  UInt16.ofNat (family * 4096 + x % 16 * 256 + y % 16 * 16 + n % 16)

end Word

end ChipEight
