/-
**Instructions.**

The thirty-four instructions of the machine, with their operands. Register numbers are natural
numbers and addresses have sixteen bits, so an instruction can be written down that no word holds;
`Instruction.masked` cuts every operand down to its field.
-/

import ChipEight.Word

namespace ChipEight

/-- An instruction and its operands; `x` and `y` are register numbers. -/
inductive Instruction where
  /-- Turns every pixel off. -/
  | clearScreen
  /-- Takes the counter from the stack. -/
  | returnFromCall
  /-- Moves the counter to the target. -/
  | jump (target : UInt16)
  /-- Puts the counter on the stack and moves it to the target. -/
  | call (target : UInt16)
  /-- Skips one instruction if a register holds the byte. -/
  | skipIfByte (x : Nat) (byte : UInt8)
  /-- Skips one instruction unless a register holds the byte. -/
  | skipUnlessByte (x : Nat) (byte : UInt8)
  /-- Skips one instruction if two registers are equal. -/
  | skipIfEqual (x y : Nat)
  /-- Sets a register to a byte. -/
  | loadByte (x : Nat) (byte : UInt8)
  /-- Adds a byte to a register and sets no flag. -/
  | addByte (x : Nat) (byte : UInt8)
  /-- Copies register `y` to register `x`. -/
  | copy (x y : Nat)
  /-- Bitwise disjunction. -/
  | bitOr (x y : Nat)
  /-- Bitwise conjunction. -/
  | bitAnd (x y : Nat)
  /-- Bitwise exclusive disjunction. -/
  | bitXor (x y : Nat)
  /-- Adds register `y` to register `x`; the flag is the carry. -/
  | add (x y : Nat)
  /-- Subtracts register `y` from register `x`; the flag tells whether `y` held more. -/
  | subtract (x y : Nat)
  /-- Halves a register; the flag is the bit that falls out. The second operand is unused. -/
  | shiftRight (x y : Nat)
  /-- Subtracts register `x` from register `y` into `x`; the flag tells whether `y` held more. -/
  | subtractFrom (x y : Nat)
  /-- Doubles a register; the flag is the bit that falls out. The second operand is unused. -/
  | shiftLeft (x y : Nat)
  /-- Skips one instruction unless two registers are equal. -/
  | skipUnlessEqual (x y : Nat)
  /-- Sets the index register. -/
  | setIndex (value : UInt16)
  /-- Moves the counter to the target plus register zero. -/
  | jumpFrom (target : UInt16)
  /-- Sets a register to a random byte masked by the given one. -/
  | random (x : Nat) (mask : UInt8)
  /-- Draws a sprite of the given height at the coordinates in two registers. -/
  | draw (x y : Nat) (height : UInt8)
  /-- Skips one instruction if the key in a register is down. -/
  | skipIfKey (x : Nat)
  /-- Skips one instruction unless the key in a register is down. -/
  | skipUnlessKey (x : Nat)
  /-- Copies the delay timer to a register. -/
  | readDelay (x : Nat)
  /-- Waits for a key and puts it into a register. -/
  | awaitKey (x : Nat)
  /-- Sets the delay timer. -/
  | setDelay (x : Nat)
  /-- Sets the sound timer. -/
  | setSound (x : Nat)
  /-- Adds a register to the index register. -/
  | addIndex (x : Nat)
  /-- Points the index register at the glyph of the digit in a register. -/
  | pointAtGlyph (x : Nat)
  /-- Stores the three decimal digits of a register. -/
  | storeDigits (x : Nat)
  /-- Stores the registers up to and including `x`. -/
  | storeRegisters (x : Nat)
  /-- Loads the registers up to and including `x`. -/
  | loadRegisters (x : Nat)
deriving DecidableEq

namespace Instruction

/-- The same instruction with every operand cut down to the bits that a word keeps of it. -/
def masked : Instruction → Instruction
  | clearScreen => clearScreen
  | returnFromCall => returnFromCall
  | jump target => jump (UInt16.ofNat (target.toNat % 4096))
  | call target => call (UInt16.ofNat (target.toNat % 4096))
  | skipIfByte x byte => skipIfByte (x % 16) byte
  | skipUnlessByte x byte => skipUnlessByte (x % 16) byte
  | skipIfEqual x y => skipIfEqual (x % 16) (y % 16)
  | loadByte x byte => loadByte (x % 16) byte
  | addByte x byte => addByte (x % 16) byte
  | copy x y => copy (x % 16) (y % 16)
  | bitOr x y => bitOr (x % 16) (y % 16)
  | bitAnd x y => bitAnd (x % 16) (y % 16)
  | bitXor x y => bitXor (x % 16) (y % 16)
  | add x y => add (x % 16) (y % 16)
  | subtract x y => subtract (x % 16) (y % 16)
  | shiftRight x y => shiftRight (x % 16) (y % 16)
  | subtractFrom x y => subtractFrom (x % 16) (y % 16)
  | shiftLeft x y => shiftLeft (x % 16) (y % 16)
  | skipUnlessEqual x y => skipUnlessEqual (x % 16) (y % 16)
  | setIndex value => setIndex (UInt16.ofNat (value.toNat % 4096))
  | jumpFrom target => jumpFrom (UInt16.ofNat (target.toNat % 4096))
  | random x mask => random (x % 16) mask
  | draw x y height => draw (x % 16) (y % 16) (UInt8.ofNat (height.toNat % 16))
  | skipIfKey x => skipIfKey (x % 16)
  | skipUnlessKey x => skipUnlessKey (x % 16)
  | readDelay x => readDelay (x % 16)
  | awaitKey x => awaitKey (x % 16)
  | setDelay x => setDelay (x % 16)
  | setSound x => setSound (x % 16)
  | addIndex x => addIndex (x % 16)
  | pointAtGlyph x => pointAtGlyph (x % 16)
  | storeDigits x => storeDigits (x % 16)
  | storeRegisters x => storeRegisters (x % 16)
  | loadRegisters x => loadRegisters (x % 16)

end Instruction

end ChipEight
