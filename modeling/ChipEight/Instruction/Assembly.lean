/-
**Instructions in assembly notation.**

An instruction is written as its mnemonic, filled up to seven columns, and its operands with commas
between them; a mnemonic without operands stands alone. Registers are written `v` and a digit in
upper case, bytes and heights begin with a number sign, addresses have three digits.
-/

import ChipEight.Instruction.Basic
import ChipEight.Text.Account
import ChipEight.Text.Layout

namespace ChipEight

/-- An operand of an instruction in assembly notation. -/
inductive Operand where
  /-- A register by its number. -/
  | register (number : Nat)
  /-- An immediate byte. -/
  | byte (value : UInt8)
  /-- An address. -/
  | address (value : UInt16)
  /-- The height of a sprite. -/
  | height (value : UInt8)
  /-- A fixed name: a timer, the index register, or what it points at. -/
  | named (name : String)
deriving DecidableEq

/-- Writes an operand. -/
def Operand.text : Operand → String
  | register number => "v" ++ Numeral.upperHex number
  | byte value => "#" ++ Numeral.hex 2 value.toNat
  | address value => Numeral.hex 3 value.toNat
  | height value => "#" ++ Numeral.hex 1 value.toNat
  | named name => name

namespace Instruction

open Operand

/-- The mnemonic of an instruction. -/
def mnemonic : Instruction → String
  | clearScreen => "cls"
  | returnFromCall => "ret"
  | jump _ | jumpFrom _ => "jp"
  | call _ => "call"
  | skipIfByte .. | skipIfEqual .. => "se"
  | skipUnlessByte .. | skipUnlessEqual .. => "sne"
  | loadByte .. | copy .. | setIndex _ => "ld"
  | addByte .. | add .. | addIndex _ => "add"
  | bitOr .. => "or"
  | bitAnd .. => "and"
  | bitXor .. => "xor"
  | subtract .. => "sub"
  | shiftRight .. => "shr"
  | subtractFrom .. => "subn"
  | shiftLeft .. => "shl"
  | random .. => "rnd"
  | draw .. => "drw"
  | skipIfKey _ => "skp"
  | skipUnlessKey _ => "sknp"
  | readDelay _ | awaitKey _ | setDelay _ | setSound _ => "ld"
  | pointAtGlyph _ | storeDigits _ | storeRegisters _ | loadRegisters _ => "ld"

/-- The operands of an instruction, destination first; the shifts show only one. -/
def operands : Instruction → List Operand
  | clearScreen | returnFromCall => []
  | jump target | call target => [address target]
  | skipIfByte x value | skipUnlessByte x value | loadByte x value | addByte x value
  | random x value => [register x, byte value]
  | skipIfEqual x y | skipUnlessEqual x y | copy x y | bitOr x y | bitAnd x y | bitXor x y
  | add x y | subtract x y | subtractFrom x y => [register x, register y]
  | shiftRight x _ | shiftLeft x _ => [register x]
  | setIndex value => [named "I", address value]
  | jumpFrom target => [register 0, address target]
  | draw x y value => [register x, register y, height value]
  | skipIfKey x | skipUnlessKey x => [register x]
  | readDelay x => [register x, named "DT"]
  | awaitKey x => [register x, named "K"]
  | setDelay x => [named "DT", register x]
  | setSound x => [named "ST", register x]
  | addIndex x => [named "I", register x]
  | pointAtGlyph x => [named "F", register x]
  | storeDigits x => [named "B", register x]
  | storeRegisters x => [named "[I]", register x]
  | loadRegisters x => [register x, named "[I]"]

/-- A mnemonic, filled up to seven columns if operands follow. -/
def layOut (mnemonic : String) : List Operand → String
  | [] => mnemonic
  | operands =>
    Column.left 7 mnemonic ++ ", ".intercalate (operands.map Operand.text)

/-- An instruction in assembly notation. -/
def text (instruction : Instruction) : String :=
  layOut instruction.mnemonic instruction.operands

/-! ### Accounts -/

/-- The account of an instruction whose operands are labelled by single letters. -/
def form (name : String) (labels : List String) (values : List Nat) : Account :=
  .record name labels (values.map .number) false

/-- A form with an address. -/
def addressForm (name : String) (target : UInt16) : Account :=
  form name ["n"] [target.toNat]

/-- A form with a register and a byte. -/
def byteForm (name : String) (x : Nat) (value : UInt8) : Account :=
  form name ["x", "k"] [x, value.toNat]

/-- A form with two registers. -/
def pairForm (name : String) (x y : Nat) : Account :=
  form name ["x", "y"] [x, y]

/-- A form with one register. -/
def registerForm (name : String) (x : Nat) : Account :=
  form name ["x"] [x]

/-- The account of an instruction: a short name that no other form has, and every operand. -/
def account : Instruction → Account
  | clearScreen => .atom "cls"
  | returnFromCall => .atom "ret"
  | jump target => addressForm "jp" target
  | call target => addressForm "call" target
  | skipIfByte x value => byteForm "sei" x value
  | skipUnlessByte x value => byteForm "snei" x value
  | skipIfEqual x y => pairForm "se" x y
  | loadByte x value => byteForm "ldi" x value
  | addByte x value => byteForm "addi" x value
  | copy x y => pairForm "ld" x y
  | bitOr x y => pairForm "or" x y
  | bitAnd x y => pairForm "and" x y
  | bitXor x y => pairForm "xor" x y
  | add x y => pairForm "add" x y
  | subtract x y => pairForm "sub" x y
  | shiftRight x y => pairForm "shr" x y
  | subtractFrom x y => pairForm "subn" x y
  | shiftLeft x y => pairForm "shl" x y
  | skipUnlessEqual x y => pairForm "sne" x y
  | setIndex value => addressForm "ldI" value
  | jumpFrom target => addressForm "jpv0" target
  | random x value => byteForm "rnd" x value
  | draw x y value => form "drw" ["x", "y", "n"] [x, y, value.toNat]
  | skipIfKey x => registerForm "skp" x
  | skipUnlessKey x => registerForm "sknp" x
  | readDelay x => registerForm "lddt" x
  | awaitKey x => registerForm "ldk" x
  | setDelay x => registerForm "setdt" x
  | setSound x => registerForm "setst" x
  | addIndex x => registerForm "addI" x
  | pointAtGlyph x => registerForm "ldf" x
  | storeDigits x => registerForm "ldb" x
  | storeRegisters x => registerForm "stm" x
  | loadRegisters x => registerForm "ldm" x

end Instruction

end ChipEight
