/-
**Instructions as words.**

`Instruction.encode` writes the word of an instruction and `Instruction.decode?` reads one. The
reader is strict: it accepts a word only if every digit that is no operand has its one value. Of
the words of family zero it knows two; `Disassembly` shows the others as machine calls. In a buffer
of bytes an instruction takes the first two, high byte first; the buffer may go on behind them.
-/

import ChipEight.Instruction.Basic

namespace ChipEight.Instruction

/-! ### Writing -/

/-- The word of an instruction; operands are cut down to their fields. -/
def encode : Instruction → Word
  | clearScreen => 0x00e0
  | returnFromCall => 0x00ee
  | jump target => Word.withAddress 0x1 target
  | call target => Word.withAddress 0x2 target
  | skipIfByte x byte => Word.withByte 0x3 x byte
  | skipUnlessByte x byte => Word.withByte 0x4 x byte
  | skipIfEqual x y => Word.withDigits 0x5 x y 0x0
  | loadByte x byte => Word.withByte 0x6 x byte
  | addByte x byte => Word.withByte 0x7 x byte
  | copy x y => Word.withDigits 0x8 x y 0x0
  | bitOr x y => Word.withDigits 0x8 x y 0x1
  | bitAnd x y => Word.withDigits 0x8 x y 0x2
  | bitXor x y => Word.withDigits 0x8 x y 0x3
  | add x y => Word.withDigits 0x8 x y 0x4
  | subtract x y => Word.withDigits 0x8 x y 0x5
  | shiftRight x y => Word.withDigits 0x8 x y 0x6
  | subtractFrom x y => Word.withDigits 0x8 x y 0x7
  | shiftLeft x y => Word.withDigits 0x8 x y 0xe
  | skipUnlessEqual x y => Word.withDigits 0x9 x y 0x0
  | setIndex value => Word.withAddress 0xa value
  | jumpFrom target => Word.withAddress 0xb target
  | random x mask => Word.withByte 0xc x mask
  | draw x y height => Word.withDigits 0xd x y height.toNat
  | skipIfKey x => Word.withByte 0xe x 0x9e
  | skipUnlessKey x => Word.withByte 0xe x 0xa1
  | readDelay x => Word.withByte 0xf x 0x07
  | awaitKey x => Word.withByte 0xf x 0x0a
  | setDelay x => Word.withByte 0xf x 0x15
  | setSound x => Word.withByte 0xf x 0x18
  | addIndex x => Word.withByte 0xf x 0x1e
  | pointAtGlyph x => Word.withByte 0xf x 0x29
  | storeDigits x => Word.withByte 0xf x 0x33
  | storeRegisters x => Word.withByte 0xf x 0x55
  | loadRegisters x => Word.withByte 0xf x 0x65

/-! ### Reading -/

/-- The instructions of family zero. -/
def decodeSystem? (word : Word) : Option Instruction :=
  match word.toNat with
  | 0x00e0 => some clearScreen
  | 0x00ee => some returnFromCall
  | _ => none

/-- The instructions of family eight, by the last digit. -/
def decodeArithmetic? (x y : Nat) : Nat → Option Instruction
  | 0x0 => some (copy x y)
  | 0x1 => some (bitOr x y)
  | 0x2 => some (bitAnd x y)
  | 0x3 => some (bitXor x y)
  | 0x4 => some (add x y)
  | 0x5 => some (subtract x y)
  | 0x6 => some (shiftRight x y)
  | 0x7 => some (subtractFrom x y)
  | 0xe => some (shiftLeft x y)
  | _ => none

/-- The instructions of family fourteen, by the immediate byte. -/
def decodeKey? (x : Nat) : Nat → Option Instruction
  | 0x9e => some (skipIfKey x)
  | 0xa1 => some (skipUnlessKey x)
  | _ => none

/-- The instructions of family fifteen, by the immediate byte. -/
def decodeDevice? (x : Nat) : Nat → Option Instruction
  | 0x07 => some (readDelay x)
  | 0x0a => some (awaitKey x)
  | 0x15 => some (setDelay x)
  | 0x18 => some (setSound x)
  | 0x1e => some (addIndex x)
  | 0x29 => some (pointAtGlyph x)
  | 0x33 => some (storeDigits x)
  | 0x55 => some (storeRegisters x)
  | 0x65 => some (loadRegisters x)
  | _ => none

/-- The instruction that a word stands for, if there is one. -/
def decode? (word : Word) : Option Instruction :=
  let x := word.x.val
  let y := word.y.val
  match word.family with
  | 0x0 => decodeSystem? word
  | 0x1 => some (jump word.address)
  | 0x2 => some (call word.address)
  | 0x3 => some (skipIfByte x word.immediate)
  | 0x4 => some (skipUnlessByte x word.immediate)
  | 0x5 => if word.n = 0 then some (skipIfEqual x y) else none
  | 0x6 => some (loadByte x word.immediate)
  | 0x7 => some (addByte x word.immediate)
  | 0x8 => decodeArithmetic? x y word.n
  | 0x9 => if word.n = 0 then some (skipUnlessEqual x y) else none
  | 0xa => some (setIndex word.address)
  | 0xb => some (jumpFrom word.address)
  | 0xc => some (random x word.immediate)
  | 0xd => some (draw x y (UInt8.ofNat word.n))
  | 0xe => decodeKey? x word.immediate.toNat
  | _ => decodeDevice? x word.immediate.toNat

/-! ### Buffers -/

/-- The only reason why a buffer can not take an instruction: it ends before the word does. -/
inductive EndOfBuffer where
  | endOfBuffer
deriving DecidableEq

/-- Writes the word of an instruction over the first two bytes of a buffer and answers how many bytes
that were. A shorter buffer stays as it is. -/
def encodeOver (instruction : Instruction) : List UInt8 → Except EndOfBuffer Nat × List UInt8
  | _ :: _ :: rest =>
    (.ok 2, instruction.encode.highByte :: instruction.encode.lowByte :: rest)
  | short => (.error .endOfBuffer, short)

/-- Reads an instruction from the first two bytes of a buffer; tells how many bytes it takes. -/
def decodeFrom? : List UInt8 → Option (Nat × Instruction)
  | high :: low :: _ => (decode? (Word.ofBytes high low)).map fun instruction => (2, instruction)
  | _ => none

end ChipEight.Instruction
