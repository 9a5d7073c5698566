/-
**The options of the listing program.**

What can be asked of the program, what can be wrong with the arguments, and how the two options that
take a number read it. A load address is hexadecimal and may carry any number of `0x` marks in
front; an offset is decimal.
-/

import ChipEight.Text.Numeral

namespace ChipEight.CommandLine

/-! ### Options -/

/-- The options of a listing. -/
structure Options where
  help : Bool
  file : Option String
  loadAddress : Nat
  offset : Nat
  plain : Bool
deriving DecidableEq

/-- The options before any argument is read. -/
def Options.standard : Options :=
  ⟨false, none, 0x200, 0, false⟩

/-- An option of the program. -/
inductive Parameter where
  /-- Show the help text. -/
  | help
  /-- The address of the first byte of the file. -/
  | loadAddress
  /-- How many bytes to leave out at the start. -/
  | offset
  /-- Do not use colours. -/
  | plain
deriving DecidableEq

namespace Parameter

/-- The option with a long name. -/
def ofName? : String → Option Parameter
  | "help" => some help
  | "loadaddr" => some loadAddress
  | "offset" => some offset
  | "plain" => some plain
  | _ => none

/-- The option with a letter. -/
def ofLetter? : Char → Option Parameter
  | 'h' => some help
  | 'l' => some loadAddress
  | 'o' => some offset
  | 'p' => some plain
  | _ => none

/-- Whether an option takes an argument. -/
def takesArgument : Parameter → Bool
  | help | plain => false
  | loadAddress | offset => true

end Parameter

/-! ### Complaints -/

/-- What may be wrong with the arguments. -/
inductive Complaint where
  /-- No file is given. -/
  | missingFile
  /-- A second file is given. -/
  | unexpectedFile (argument : String)
  /-- There is no such option. -/
  | unrecognized (option : String)
  /-- The arguments end where an option still needs one. -/
  | missingArgument (option : String)
  /-- The option does not take an argument. -/
  | unexpectedArgument (option : String)
  /-- The argument of an option is no number. -/
  | invalidArgument (option : String) (reason : Numeral.Malformed)
deriving DecidableEq

/-- Puts a text between the marks for quoted arguments. -/
def quoted (text : String) : String :=
  "`" ++ text ++ "`"

/-- The wording of a complaint. -/
def Complaint.message : Complaint → String
  | missingFile => "missing required free argument"
  | unexpectedFile argument => "unexpected free argument " ++ quoted argument
  | unrecognized option => "unrecognized option " ++ quoted option
  | missingArgument option => "missing argument to option " ++ quoted option
  | unexpectedArgument option => "option " ++ quoted option ++ " does not accept an argument"
  | invalidArgument option reason =>
    "invalid argument to option " ++ quoted option ++ ": " ++ reason.message

/-! ### Numbers -/

/-- Removes every mark of a hexadecimal number from the front of a text. -/
def dropMarks : List Char → List Char
  | '0' :: 'x' :: rest => dropMarks rest
  | text => text

/-- Reads an address of sixteen bits, in hexadecimal with or without marks in front. -/
def readAddress (text : String) : Except Numeral.Malformed Nat :=
  Numeral.read 16 0xffff (dropMarks text.toList)

/-- Reads a count of bytes, in decimal. -/
def readOffset (text : String) : Except Numeral.Malformed Nat :=
  Numeral.read 10 0xffffffffffffffff text.toList

end ChipEight.CommandLine
