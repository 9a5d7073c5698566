/-
**Accounts: readable descriptions of values.**

An account is a tree of names, lists and records. It is printed on one line (`Account.line`) or
spread over indented lines (`Account.block`), with a comma after every part in the second form.
-/

import ChipEight.Text.Numeral

namespace ChipEight

/-- A description of a value, before it is laid out. -/
inductive Account where
  /-- A single word: a number, a truth value or a name. -/
  | atom (text : String)
  /-- A sequence of parts. -/
  | list (items : List Account)
  /-- A name with unnamed parts. -/
  | tuple (name : String) (items : List Account)
  /-- A name with labelled parts; `withheld` tells that there are more which are not shown. -/
  | record (name : String) (labels : List String) (values : List Account) (withheld : Bool)

namespace Account

/-- Describes a number by its decimal digits. -/
def number (value : Nat) : Account :=
  atom (Numeral.decimal value)

/-- Describes a truth value. -/
def truth (value : Bool) : Account :=
  atom (if value then "true" else "false")

/-- Labels a part. -/
def labelled (label value : String) : String :=
  label ++ ": " ++ value

/-! ### On one line -/

mutual

/-- Writes an account on one line. -/
def line : Account → String
  | atom text => text
  | list items => "[" ++ ", ".intercalate (lines items) ++ "]"
  | tuple name items => name ++ "(" ++ ", ".intercalate (lines items) ++ ")"
  | record name labels values withheld =>
    let parts := List.zipWith labelled labels (lines values) ++ if withheld then [".."] else []
    name ++ " \x7b " ++ ", ".intercalate parts ++ " \x7d"

/-- Writes each account of a list on a line of its own. -/
def lines : List Account → List String
  | [] => []
  | item :: rest => item.line :: lines rest

end

/-! ### On indented lines -/

/-- Moves lines one level to the right. -/
def indent (rows : List String) : List String :=
  rows.map ("    " ++ ·)

/-- Puts a comma behind the last of some lines. -/
def withComma : List String → List String
  | [] => []
  | [last] => [last ++ ","]
  | row :: rest => row :: withComma rest

/-- Puts a label in front of the first of some lines. -/
def withLabel (label : String) : List String → List String
  | [] => []
  | first :: rest => labelled label first :: rest

/-- Encloses parts between brackets, each part indented and followed by a comma. -/
def enclosed (opening closing : String) (parts : List (List String)) (last : List String) :
    List String :=
  opening :: indent (parts.flatMap withComma ++ last) ++ [closing]

mutual

/-- The lines of the spread form of an account. -/
def rows : Account → List String
  | atom text => [text]
  | list items => if items.isEmpty then ["[]"] else enclosed "[" "]" (rowsOfAll items) []
  | tuple name items => enclosed (name ++ "(") ")" (rowsOfAll items) []
  | record name labels values withheld =>
    enclosed (name ++ " \x7b") "\x7d" (List.zipWith withLabel labels (rowsOfAll values))
      (if withheld then [".."] else [])

/-- The lines of each account of a list. -/
def rowsOfAll : List Account → List (List String)
  | [] => []
  | item :: rest => item.rows :: rowsOfAll rest

end

/-- Writes an account over indented lines. -/
def block (account : Account) : String :=
  "\n".intercalate account.rows

end Account

end ChipEight
