/-
**Numerals: how numbers are written and read.**

A number is written in a base without leading zeros, or filled up with zeros to a least width; it
is read digit by digit against an upper bound.

* `Numeral.hex`, `Numeral.upperHex`, `Numeral.decimal` — the written forms.
* `Numeral.read` — the reader: an optional plus sign, then digits. The first digit that is wrong or
  that carries the value past the bound decides which error is reported.
-/

namespace ChipEight.Numeral

/-! ### Writing -/

/-- The digits of a number in base sixteen, in lower case; zero has a single digit. -/
def hexDigits (value : Nat) : List Char :=
  Nat.toDigits 16 value

/-- Hexadecimal text in lower case with at least `width` digits. -/
def hex (width value : Nat) : String :=
  String.ofList ((hexDigits value).leftpad width '0')

/-- Hexadecimal text in upper case without leading zeros. -/
def upperHex (value : Nat) : String :=
  String.ofList ((hexDigits value).map Char.toUpper)

/-- Decimal text without leading zeros. -/
def decimal (value : Nat) : String :=
  String.ofList (Nat.toDigits 10 value)

/-- Hexadecimal text of a row of bytes, two digits each. -/
def hexBytes (bytes : List UInt8) : String :=
  String.join (bytes.map fun byte => hex 2 byte.toNat)

/-! ### Reading -/

/-- Why a text is not a numeral within its bound. -/
inductive Malformed where
  /-- Nothing was written. -/
  | empty
  /-- A character is not a digit of the base. -/
  | invalidDigit
  /-- The value exceeds the bound. -/
  | tooLarge
deriving DecidableEq

/-- What the command line says about a malformed numeral. -/
def Malformed.message : Malformed → String
  | .empty => "cannot parse integer from empty string"
  | .invalidDigit => "invalid digit found in string"
  | .tooLarge => "number too large to fit in target type"

/-- The value of a digit or letter, either case: up to thirty-five. -/
def digitValue? (character : Char) : Option Nat :=
  if '0' ≤ character ∧ character ≤ '9' then some (character.toNat - '0'.toNat)
  else if 'a' ≤ character ∧ character ≤ 'z' then some (character.toNat - 'a'.toNat + 10)
  else if 'A' ≤ character ∧ character ≤ 'Z' then some (character.toNat - 'A'.toNat + 10)
  else none

/-- The value of a digit of the given base. -/
def digit? (base : Nat) (character : Char) : Option Nat :=
  (digitValue? character).filter (· < base)

/-- Appends digits to a value, from the left, and stops at the first one that does not fit. -/
def readDigits (base bound : Nat) : Nat → List Char → Except Malformed Nat
  | value, [] => .ok value
  | value, character :: rest =>
    match digit? base character with
    | none => .error .invalidDigit
    | some digit =>
      if value * base + digit ≤ bound then readDigits base bound (value * base + digit) rest
      else .error .tooLarge

/-- Reads a numeral of at most `bound`; one plus sign may stand in front of the digits. -/
def read (base bound : Nat) : List Char → Except Malformed Nat
  | [] => .error .empty
  | ['+'] => .error .invalidDigit
  | '+' :: digits => readDigits base bound 0 digits
  | digits => readDigits base bound 0 digits

end ChipEight.Numeral
