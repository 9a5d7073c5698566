/-
**Writing and reading instructions as words.**

The writer cuts operands down to their fields, and the reader is strict. So they are inverse to each
other up to `Instruction.masked`:

* `decode_encode`: reading the word of an instruction gives it back with its operands cut down;
* `encode_of_decode`: writing an instruction that was read gives the word back, unused digits
  included;
* `encode_eq_iff`: two instructions have the same word if they are equal after the cut;
* `decode_inverts_encode`: the same over buffers of any length, with the text of the word.
-/

import ChipEight.Disassembly
import ChipEight.Proofs.Instruction.Reading

namespace ChipEight.Instruction

variable {word : Word} {instruction : Instruction}

/-! ### Words -/

/-- **Reading inverts writing**, up to the cut of the operands to their fields. -/
theorem decode_encode (instruction : Instruction) :
    decode? instruction.encode = some instruction.masked := by
  cases instruction with
  | clearScreen | returnFromCall => rfl
  | jump | call | setIndex | jumpFrom =>
    simp only [encode, decode?, masked, Word.family_withAddress, Word.address_withAddress,
      Nat.reduceLT]
  | skipIfByte | skipUnlessByte | loadByte | addByte | random =>
    simp only [encode, decode?, masked, Word.family_withByte, Word.x_withByte,
      Word.immediate_withByte, Fin.val_ofNat, Nat.reduceLT]
  | skipIfEqual | skipUnlessEqual =>
    simp only [encode, decode?, masked, Word.family_withDigits, Word.x_withDigits,
      Word.y_withDigits, Word.n_withDigits, Fin.val_ofNat, Nat.reduceLT, Nat.zero_mod, if_true]
  | draw =>
    simp only [encode, decode?, masked, Word.family_withDigits, Word.x_withDigits,
      Word.y_withDigits, Word.n_withDigits, Fin.val_ofNat, Nat.reduceLT]
  | copy | bitOr | bitAnd | bitXor | add | subtract | shiftRight | subtractFrom | shiftLeft =>
    simp only [encode, decode?, decodeArithmetic?, masked, Word.family_withDigits,
      Word.x_withDigits, Word.y_withDigits, Word.n_withDigits, Fin.val_ofNat, Nat.reduceLT,
      Nat.reduceMod]
  | skipIfKey | skipUnlessKey =>
    simp only [encode, decode?, decodeKey?, masked, Word.family_withByte, Word.x_withByte,
      Word.immediate_withByte, Fin.val_ofNat, Nat.reduceLT]
    rfl
  | _ =>
    simp only [encode, decode?, decodeDevice?, masked, Word.family_withByte, Word.x_withByte,
      Word.immediate_withByte, Fin.val_ofNat, Nat.reduceLT]
    rfl

/-- **Writing inverts reading**: an instruction that was read has the word it was read from. -/
theorem encode_of_decode (decoded : decode? word = some instruction) :
    instruction.encode = word := by
  cases Word.reads_of_decode decoded with
  | clearScreen itself | returnFromCall itself => exact itself.symm
  | jump family | call family | setIndex family | jumpFrom family =>
    exact word.withAddress_of_fields family
  | skipIfByte family | skipUnlessByte family | loadByte family | addByte family
  | random family => exact word.withByte_of_fields family rfl
  | skipIfEqual family | skipUnlessEqual family =>
    -- execution does not look at the last digit, the reader does
    simp only [decode?, family] at decoded
    split at decoded
    · rename_i n
      exact word.withDigits_of_fields family n
    · cases decoded
  | copy family n | bitOr family n | bitAnd family n | bitXor family n | add family n
  | subtract family n | shiftRight family n | subtractFrom family n =>
    exact word.withDigits_of_fields family n
  | shiftLeft family last =>
    -- the reader knows one of the two shifts only
    rcases last with last | last
    · simp only [decode?, decodeArithmetic?, family, last] at decoded
      cases decoded
    · exact word.withDigits_of_fields family last
  | draw family =>
    have small := word.n_lt
    have height : (UInt8.ofNat word.n).toNat = word.n := by
      rw [UInt8.toNat_ofNat']
      omega
    exact word.withDigits_of_fields family height.symm
  | skipIfKey itself | skipUnlessKey itself | readDelay itself | awaitKey itself
  | setDelay itself | setSound itself | addIndex itself | pointAtGlyph itself
  | storeDigits itself | storeRegisters itself | loadRegisters itself =>
    exact word.withByte_of_fields itself.1 itself.2

theorem encode_masked (instruction : Instruction) :
    instruction.masked.encode = instruction.encode :=
  encode_of_decode (decode_encode instruction)

/-- **Two instructions have the same word if their cut operands are the same**, and only then. -/
theorem encode_eq_iff (first second : Instruction) :
    first.encode = second.encode ↔ first.masked = second.masked := by
  constructor
  · intro same
    have read := decode_encode first
    rw [same, decode_encode] at read
    exact (Option.some.inj read).symm
  · intro same
    rw [← encode_masked, same, encode_masked]

/-- The plain text of a word that is read is that of its instruction. -/
theorem disassemble_of_decode (decoded : decode? word = some instruction) :
    word.disassemble .plain = instruction.text := by
  unfold Word.disassemble
  rw [decoded]
  exact Style.plain_apply instruction.text

/-- An instruction that was read has its operands cut down already. -/
theorem masked_of_decode (decoded : decode? word = some instruction) :
    instruction.masked = instruction := by
  have again := decode_encode instruction
  rw [encode_of_decode decoded, decoded] at again
  exact (Option.some.inj again).symm

/-! ### Buffers -/

theorem encodeOver_of_short {buffer : List UInt8} (short : buffer.length < 2) :
    instruction.encodeOver buffer = (.error .endOfBuffer, buffer) := by
  unfold encodeOver
  split
  · simp only [List.length_cons] at short
    omega
  · rfl

/-- An instruction that was written over a buffer is read from it, whatever follows. -/
theorem decodeFrom_written (instruction : Instruction) (rest : List UInt8) :
    decodeFrom? (instruction.encode.highByte :: instruction.encode.lowByte :: rest) =
      some (2, instruction.masked) := by
  rw [decodeFrom?, Word.ofBytes_bytes, decode_encode]
  rfl

/-- An instruction that was read from a buffer leaves the buffer alone if it is written over it. -/
theorem encodeOver_of_decodeFrom {buffer : List UInt8} {length : Nat}
    (decoded : decodeFrom? buffer = some (length, instruction)) :
    instruction.encodeOver buffer = (.ok length, buffer) := by
  unfold decodeFrom? at decoded
  split at decoded
  · rename_i high low rest
    obtain ⟨found, read, same⟩ := Option.map_eq_some_iff.mp decoded
    cases same
    obtain ⟨first, second⟩ := Word.bytes_ofBytes high low
    rw [encodeOver, encode_of_decode read, first, second]
  · cases decoded

/-- **Writing and reading are inverse.** Writing an instruction over a buffer fails without a change if
the buffer has less than two bytes. Otherwise it overwrites the first two, and whatever the others
are, reading takes two bytes and gives the instruction with its operands cut down to their fields.
The other way round, an instruction that was read, from a word or from a buffer, is written as what
it was read from. So instructions share a word if they are equal after the cut, and the text of the
word is that of the cut instruction. -/
theorem decode_inverts_encode (instruction : Instruction) (buffer : List UInt8) :
    (buffer.length < 2 → instruction.encodeOver buffer = (.error .endOfBuffer, buffer)) ∧
    (∀ first second rest, buffer = first :: second :: rest →
      instruction.encodeOver buffer =
        (.ok 2, instruction.encode.highByte :: instruction.encode.lowByte :: rest) ∧
      decodeFrom? (instruction.encodeOver buffer).2 = some (2, instruction.masked)) ∧
    (∀ word decoded, decode? word = some decoded → decoded.encode = word) ∧
    (∀ length decoded, decodeFrom? buffer = some (length, decoded) →
      decoded.encodeOver buffer = (.ok length, buffer)) ∧
    (∀ other, instruction.encode = encode other ↔ instruction.masked = other.masked) ∧
    instruction.encode.disassemble .plain = instruction.masked.text := by
  refine ⟨encodeOver_of_short, ?_, ?_, ?_, encode_eq_iff instruction,
    disassemble_of_decode (decode_encode instruction)⟩
  · rintro first second rest rfl
    exact ⟨rfl, decodeFrom_written instruction rest⟩
  · intro word decoded read
    exact encode_of_decode read
  · intro length decoded read
    exact encodeOver_of_decodeFrom read

/-- Operands beyond their fields, a buffer that is too short, and a shift with its unused operand. -/
theorem decode_inverts_encode_wide :
    (draw 0x1f 0x20 0xa5).encodeOver [0x00] = (.error .endOfBuffer, [0x00]) ∧
      decodeFrom? ((draw 0x1f 0x20 0xa5).encodeOver [0x00, 0x00, 0x7f]).2 =
        some (2, draw 0xf 0x0 0x5) ∧
      (shiftRight 0xa 0xb).encode = 0x8ab6 := by
  obtain ⟨short, -⟩ := decode_inverts_encode (draw 0x1f 0x20 0xa5) [0x00]
  obtain ⟨-, long, words, -⟩ := decode_inverts_encode (draw 0x1f 0x20 0xa5) [0x00, 0x00, 0x7f]
  exact ⟨short (by decide), (long 0x00 0x00 [0x7f] rfl).2, words 0x8ab6 _ (by decide)⟩

end ChipEight.Instruction
