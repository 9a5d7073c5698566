/-
**Why an operation fails.**

An operation may be refused, for a reason that it reports, or it may reach outside memory, stack or
screen, which it can not report. A refused operation has done nothing but what its own description
says; one that went out of bounds leaves everything it did before.
-/

import ChipEight.Memory.Region
import ChipEight.Text.Account
import ChipEight.Word

namespace ChipEight

/-- A reason to refuse an operation. -/
inductive Refusal where
  /-- The payload does not leave a byte of its region free. -/
  | payloadTooLong (region : Region) (length capacity : Nat)
  /-- The word is no instruction. -/
  | unknownWord (word : Word)
  /-- There is no such key. -/
  | noSuchKey (key : Nat)
  /-- There is no such register. -/
  | noSuchRegister (register : Nat)
deriving DecidableEq

/-- The failure of an operation. -/
inductive Failure where
  /-- The operation was refused. -/
  | refused (reason : Refusal)
  /-- The operation reached outside memory, stack or screen. -/
  | outOfBounds
deriving DecidableEq

namespace Refusal

/-- The text of a refusal. -/
def message : Refusal → String
  | payloadTooLong region length capacity =>
    region.name ++ " payload of " ++ Numeral.decimal length ++ " bytes does not fit in "
      ++ Numeral.decimal capacity ++ " bytes"
  | unknownWord word => "opcode " ++ word.text ++ " not recognized"
  | noSuchKey key => "tried to press key " ++ Numeral.upperHex key ++ " which does not exist"
  | noSuchRegister register =>
    "tried to access register v" ++ Numeral.upperHex register ++ " which does not exist"

/-- The account of a refusal, with its kind and every detail. -/
def account : Refusal → Account
  | payloadTooLong region length capacity =>
    .record "LoadOverflow" ["region", "len", "capacity"]
      [.atom region.name, .number length, .number capacity] false
  | unknownWord word => .record "UnknownOpcode" ["word"] [.number word.toNat] false
  | noSuchKey key => .record "InvalidKey" ["key"] [.number key] false
  | noSuchRegister register => .record "InvalidRegister" ["reg"] [.number register] false

end Refusal

end ChipEight
