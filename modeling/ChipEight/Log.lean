/-
**What a machine reports.**

A machine reports the instruction it is about to run, words it does not know, and when it begins or
ends to wait for a key. An entry holds the facts; its level and wording are fixed here.
-/

import ChipEight.Disassembly

namespace ChipEight

/-- An entry of the log. -/
inductive LogEntry where
  /-- The word at an address is about to be executed, after some number of others. -/
  | instruction (cycles : UInt64) (address : UInt16) (word : Word)
  /-- The word at an address is no instruction. -/
  | unknownWord (address : UInt16) (word : Word)
  /-- An instruction waits for a key for its register. -/
  | awaitingKey (register : Fin 16)
  /-- A key has ended the wait. -/
  | keyTaken (key : Fin 16)
deriving DecidableEq

namespace LogEntry

/-- The level of an entry. -/
def level : LogEntry → String
  | instruction .. => "DEBUG"
  | unknownWord .. => "WARN"
  | awaitingKey _ => "TRACE"
  | keyTaken _ => "TRACE"

/-- The wording of an entry. -/
def message : LogEntry → String
  | instruction cycles address word =>
    Style.grey.apply (Column.right 3 (Numeral.decimal cycles.toNat)) ++ " "
      ++ Numeral.hex 3 address.toNat ++ ": " ++ Column.left 36 (word.disassemble .coloured)
  | unknownWord address word =>
    Numeral.hex 3 address.toNat ++ ": unknown opcode " ++ word.text
  | awaitingKey register => "v" ++ Numeral.upperHex register ++ " waiting for key"
  | keyTaken key => "key " ++ Numeral.upperHex key ++ " released the key wait"

/-- The line of an entry: its level and its wording. -/
def line (entry : LogEntry) : String :=
  entry.level ++ " " ++ entry.message

end LogEntry

end ChipEight
