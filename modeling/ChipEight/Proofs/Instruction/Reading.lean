/-
**Which instruction a word is carried out as.**

`Word.ReadsAs` lists the words that are carried out as an instruction, and `perform_of_reads` says
that such a word does what the instruction means. It is more than `Instruction.decode?` accepts:

* `Word.reads_of_decode`: every word that is decoded is carried out as its instruction;
* `perform_of_idle`, `perform_of_unknown`: of the words that are not decoded, those of family zero do
  nothing, and all but a few others are unknown. The few are read as instructions all the same;
* `word_cases`, `perform_cases`: there is nothing else;
* `execute_agrees_with_decode`: the same of execution and decoding, with the exact difference.
-/

import Mathlib.Tactic.Common
import ChipEight.Instruction.Encoding
import ChipEight.Proofs.Instruction.Meaning
import ChipEight.Proofs.Word

namespace ChipEight

/-- Whether a word belongs to family fifteen and has the given last byte. -/
def Word.IsDevice (word : Word) (byte : Nat) : Prop :=
  word.family = 0xf ∧ word.immediate.toNat = byte

/-- Whether a word belongs to family fourteen and has the given last byte. -/
def Word.IsKey (word : Word) (byte : Nat) : Prop :=
  word.family = 0xe ∧ word.immediate.toNat = byte

open Instruction in
/-- **The words that are carried out as an instruction.** -/
inductive Word.ReadsAs (word : Word) : Instruction → Prop
  | clearScreen (itself : word = 0x00e0) : ReadsAs word clearScreen
  | returnFromCall (itself : word = 0x00ee) : ReadsAs word returnFromCall
  | jump (family : word.family = 0x1) : ReadsAs word (jump word.address)
  | call (family : word.family = 0x2) : ReadsAs word (call word.address)
  | skipIfByte (family : word.family = 0x3) : ReadsAs word (skipIfByte word.x word.immediate)
  | skipUnlessByte (family : word.family = 0x4) :
      ReadsAs word (skipUnlessByte word.x word.immediate)
  /-- The last digit does not matter. -/
  | skipIfEqual (family : word.family = 0x5) : ReadsAs word (skipIfEqual word.x word.y)
  | loadByte (family : word.family = 0x6) : ReadsAs word (loadByte word.x word.immediate)
  | addByte (family : word.family = 0x7) : ReadsAs word (addByte word.x word.immediate)
  | copy (family : word.family = 0x8) (digit : word.n = 0x0) : ReadsAs word (copy word.x word.y)
  | bitOr (family : word.family = 0x8) (digit : word.n = 0x1) : ReadsAs word (bitOr word.x word.y)
  | bitAnd (family : word.family = 0x8) (digit : word.n = 0x2) : ReadsAs word (bitAnd word.x word.y)
  | bitXor (family : word.family = 0x8) (digit : word.n = 0x3) : ReadsAs word (bitXor word.x word.y)
  | add (family : word.family = 0x8) (digit : word.n = 0x4) : ReadsAs word (add word.x word.y)
  | subtract (family : word.family = 0x8) (digit : word.n = 0x5) :
      ReadsAs word (subtract word.x word.y)
  | shiftRight (family : word.family = 0x8) (digit : word.n = 0x6) :
      ReadsAs word (shiftRight word.x word.y)
  | subtractFrom (family : word.family = 0x8) (digit : word.n = 0x7) :
      ReadsAs word (subtractFrom word.x word.y)
  /-- Two last digits shift to the left. -/
  | shiftLeft (family : word.family = 0x8) (digit : word.n = 0x8 ∨ word.n = 0xe) :
      ReadsAs word (shiftLeft word.x word.y)
  /-- The last digit does not matter. -/
  | skipUnlessEqual (family : word.family = 0x9) : ReadsAs word (skipUnlessEqual word.x word.y)
  | setIndex (family : word.family = 0xa) : ReadsAs word (setIndex word.address)
  | jumpFrom (family : word.family = 0xb) : ReadsAs word (jumpFrom word.address)
  | random (family : word.family = 0xc) : ReadsAs word (random word.x word.immediate)
  | draw (family : word.family = 0xd) : ReadsAs word (draw word.x word.y (UInt8.ofNat word.n))
  | skipIfKey (itself : word.IsKey 0x9e) : ReadsAs word (skipIfKey word.x)
  | skipUnlessKey (itself : word.IsKey 0xa1) : ReadsAs word (skipUnlessKey word.x)
  | readDelay (itself : word.IsDevice 0x07) : ReadsAs word (readDelay word.x)
  | awaitKey (itself : word.IsDevice 0x0a) : ReadsAs word (awaitKey word.x)
  | setDelay (itself : word.IsDevice 0x15) : ReadsAs word (setDelay word.x)
  | setSound (itself : word.IsDevice 0x18) : ReadsAs word (setSound word.x)
  | addIndex (itself : word.IsDevice 0x1e) : ReadsAs word (addIndex word.x)
  | pointAtGlyph (itself : word.IsDevice 0x29) : ReadsAs word (pointAtGlyph word.x)
  | storeDigits (itself : word.IsDevice 0x33) : ReadsAs word (storeDigits word.x)
  | storeRegisters (itself : word.IsDevice 0x55) : ReadsAs word (storeRegisters word.x)
  | loadRegisters (itself : word.IsDevice 0x65) : ReadsAs word (loadRegisters word.x)

namespace Machine

/-! ### Words that are carried out as an instruction -/

variable {machine : Machine} {word : Word} {instruction : Instruction}

/-- **A word that is read as an instruction does what the instruction means.** -/
theorem perform_of_reads (reads : word.ReadsAs instruction) :
    machine.perform word = instruction.meaning machine := by
  cases reads with
  | clearScreen itself =>
    subst itself
    rfl
  | returnFromCall itself =>
    subst itself
    exact returnFromCall_meaning machine
  | jump family =>
    simp only [perform, family]
    rfl
  | call family =>
    simp only [perform, family]
    exact call_meaning machine word.address
  | skipIfByte family | skipIfEqual family =>
    simp only [perform, family]
    exact (skipping_eq machine (by simp only [value_eq, Byte.decide_toNat_eq])).symm
  | skipUnlessByte family | skipUnlessEqual family =>
    simp only [perform, family]
    exact (skipping_eq machine (by simp only [value_eq, Byte.decide_toNat_ne])).symm
  | loadByte family =>
    simp only [perform, family]
    exact (putting_eq machine word.x UInt8.ofNat_toNat).symm
  | addByte family =>
    simp only [perform, family]
    refine (putting_eq machine word.x ?_).symm
    rw [value_eq, UInt8.ofNat_add, UInt8.ofNat_toNat, UInt8.ofNat_toNat]
  | copy family digit | bitOr family digit | bitAnd family digit | bitXor family digit =>
    simp only [perform, family, executeArithmetic, arithmetic?, digit]
    refine (putting_eq machine word.x ?_).symm
    simp only [value_eq, get, UInt8.ofNat_or, UInt8.ofNat_and, UInt8.ofNat_xor, UInt8.ofNat_toNat]
  | add family digit =>
    simp only [perform, family, executeArithmetic, arithmetic?, digit]
    refine (puttingWithFlag_eq machine word.x ?_ ?_).symm
    · rw [value_eq, value_eq, UInt8.ofNat_add, UInt8.ofNat_toNat, UInt8.ofNat_toNat]
      rfl
    · rw [value_eq, value_eq]
      rfl
  | subtract family digit | subtractFrom family digit =>
    simp only [perform, family, executeArithmetic, arithmetic?, digit]
    refine (puttingWithFlag_eq machine word.x ?_ ?_).symm
    · rw [value_eq, value_eq]
      exact Byte.ofNat_sub_toNat _ _
    · rw [value_eq, value_eq]
      rfl
  | shiftRight family digit =>
    simp only [perform, family, executeArithmetic, arithmetic?, digit]
    refine (puttingWithFlag_eq machine word.x ?_ ?_).symm
    · rw [value_eq]
      exact Byte.ofNat_half _
    · rw [value_eq]
      exact Byte.testBit_lowest _
  | shiftLeft family digit =>
    rcases digit with digit | digit
    all_goals
      simp only [perform, family, executeArithmetic, arithmetic?, digit]
      refine (puttingWithFlag_eq machine word.x ?_ ?_).symm
      · rw [value_eq]
        exact Byte.ofNat_double _
      · rw [value_eq]
        exact Byte.testBit_highest _
  | setIndex family =>
    simp only [perform, family]
    rfl
  | jumpFrom family =>
    simp only [perform, family, Instruction.meaning, value, UInt16.ofNat_add, UInt16.ofNat_toNat,
      Byte.ofNat_toNat_wide]
    rfl
  | random family =>
    simp only [perform, family, Instruction.meaning, Registers.named_val]
    rfl
  | draw family =>
    have low := word.n_lt
    simp only [perform, family]
    exact draw_meaning machine word.x word.y (by omega)
  | skipIfKey itself | skipUnlessKey itself =>
    simp only [perform, executeKey, itself.1, itself.2, Instruction.meaning, value_eq]
    rfl
  | readDelay itself =>
    simp only [perform, executeDevice, itself.1, itself.2]
    exact (putting_eq machine word.x UInt8.ofNat_toNat).symm
  | awaitKey itself =>
    simp only [perform, executeDevice, itself.1, itself.2, Instruction.meaning,
      Registers.named_val]
    rfl
  | setDelay itself | setSound itself =>
    simp only [perform, executeDevice, itself.1, itself.2, Instruction.meaning, value_eq,
      UInt8.ofNat_toNat]
    rfl
  | addIndex itself =>
    simp only [perform, executeDevice, itself.1, itself.2, Instruction.meaning, value_eq,
      UInt16.ofNat_add, UInt16.ofNat_toNat, Byte.ofNat_toNat_wide]
    rfl
  | pointAtGlyph itself =>
    simp only [perform, executeDevice, itself.1, itself.2, Instruction.meaning, value_eq,
      Nat.mul_comm 5]
    rfl
  | storeDigits itself =>
    simp only [perform, executeDevice, itself.1, itself.2]
    exact storeDigits_meaning machine word.x
  | storeRegisters itself =>
    simp only [perform, executeDevice, itself.1, itself.2]
    exact storeRegisters_meaning machine word.x
  | loadRegisters itself =>
    simp only [perform, executeDevice, itself.1, itself.2]
    exact loadRegisters_meaning machine word.x

end Machine

/-! ### Words that are decoded -/

namespace Word

open Instruction

variable {word : Word} {instruction : Instruction}

theorem reads_of_decodeSystem (decoded : decodeSystem? word = some instruction) :
    word.ReadsAs instruction := by
  unfold decodeSystem? at decoded
  split at decoded <;> cases decoded
  · rename_i itself
    exact .clearScreen (UInt16.toNat_inj.mp itself)
  · rename_i itself
    exact .returnFromCall (UInt16.toNat_inj.mp itself)

theorem reads_of_decodeArithmetic (family : word.family = 0x8)
    (decoded : decodeArithmetic? word.x word.y word.n = some instruction) :
    word.ReadsAs instruction := by
  unfold decodeArithmetic? at decoded
  split at decoded <;> cases decoded <;> rename_i digit
  · exact .copy family digit
  · exact .bitOr family digit
  · exact .bitAnd family digit
  · exact .bitXor family digit
  · exact .add family digit
  · exact .subtract family digit
  · exact .shiftRight family digit
  · exact .subtractFrom family digit
  · exact .shiftLeft family (.inr digit)

theorem reads_of_decodeKey (family : word.family = 0xe)
    (decoded : decodeKey? word.x word.immediate.toNat = some instruction) :
    word.ReadsAs instruction := by
  unfold decodeKey? at decoded
  split at decoded <;> cases decoded <;> rename_i byte
  · exact .skipIfKey ⟨family, byte⟩
  · exact .skipUnlessKey ⟨family, byte⟩

theorem reads_of_decodeDevice (family : word.family = 0xf)
    (decoded : decodeDevice? word.x word.immediate.toNat = some instruction) :
    word.ReadsAs instruction := by
  unfold decodeDevice? at decoded
  split at decoded <;> cases decoded <;> rename_i byte
  · exact .readDelay ⟨family, byte⟩
  · exact .awaitKey ⟨family, byte⟩
  · exact .setDelay ⟨family, byte⟩
  · exact .setSound ⟨family, byte⟩
  · exact .addIndex ⟨family, byte⟩
  · exact .pointAtGlyph ⟨family, byte⟩
  · exact .storeDigits ⟨family, byte⟩
  · exact .storeRegisters ⟨family, byte⟩
  · exact .loadRegisters ⟨family, byte⟩

/-- The last family is the one that no other line of a dispatch takes. -/
theorem last_family (word : Word) (others : ∀ digit < 15, word.family ≠ digit) :
    word.family = 0xf := by
  have bound := word.family_lt
  by_contra different
  exact others word.family (by omega) rfl

/-- **A word that is decoded is carried out as its instruction.** -/
theorem reads_of_decode (decoded : decode? word = some instruction) : word.ReadsAs instruction := by
  unfold decode? at decoded
  simp only at decoded
  split at decoded
  case h_16 => exact reads_of_decodeDevice (word.last_family (by grind)) decoded
  all_goals rename_i family
  · exact reads_of_decodeSystem decoded
  · cases decoded
    exact .jump family
  · cases decoded
    exact .call family
  · cases decoded
    exact .skipIfByte family
  · cases decoded
    exact .skipUnlessByte family
  · split at decoded <;> cases decoded
    exact .skipIfEqual family
  · cases decoded
    exact .loadByte family
  · cases decoded
    exact .addByte family
  · exact reads_of_decodeArithmetic family decoded
  · split at decoded <;> cases decoded
    exact .skipUnlessEqual family
  · cases decoded
    exact .setIndex family
  · cases decoded
    exact .jumpFrom family
  · cases decoded
    exact .random family
  · cases decoded
    exact .draw family
  · exact reads_of_decodeKey family decoded

end Word

/-! ### Words that are not decoded -/

namespace Machine

open Instruction

variable {word : Word} (machine : Machine)

/-- A word of family zero that is not decoded does nothing. -/
theorem perform_of_idle (family : word.family = 0x0) (rejected : decode? word = none) :
    machine.perform word = .done () machine := by
  simp only [decode?, family] at rejected
  unfold decodeSystem? at rejected
  split at rejected
  · cases rejected
  · cases rejected
  rename_i noClear noReturn
  simp only [perform, family, executeSystem]
  split
  · rename_i address
    exact absurd (congrArg UInt16.toNat (word.eq_clear_iff.mpr ⟨family, address⟩)) noClear
  · rename_i address
    exact absurd (congrArg UInt16.toNat (word.eq_return_iff.mpr ⟨family, address⟩)) noReturn
  · rfl

theorem executeArithmetic_of_rejected (rejected : decodeArithmetic? word.x word.y word.n = none)
    (noShift : word.n ≠ 0x8) : machine.executeArithmetic word = machine.unknown word := by
  unfold decodeArithmetic? at rejected
  split at rejected
  case h_10 =>
    have nothing : arithmetic? word.x word.y machine.registers word.n = none := by
      unfold arithmetic?
      split
      case h_11 => rfl
      all_goals contradiction
    simp only [executeArithmetic, nothing]
  all_goals cases rejected

theorem executeKey_of_rejected (rejected : decodeKey? word.x word.immediate.toNat = none) :
    machine.executeKey word = machine.unknown word := by
  unfold decodeKey? at rejected
  split at rejected
  case h_3 noSkip noSkipUnless =>
    unfold executeKey
    split
    · contradiction
    · contradiction
    · rfl
  all_goals cases rejected

theorem executeDevice_of_rejected (rejected : decodeDevice? word.x word.immediate.toNat = none) :
    machine.executeDevice word = machine.unknown word := by
  unfold decodeDevice? at rejected
  split at rejected
  case h_10 =>
    unfold executeDevice
    split
    case h_10 => rfl
    all_goals contradiction
  all_goals cases rejected

/-- The families that have words which are not decoded. -/
theorem family_of_rejected (rejected : decode? word = none) :
    word.family = 0x0 ∨ word.family = 0x5 ∨ word.family = 0x8 ∨ word.family = 0x9 ∨
      word.family = 0xe ∨ word.family = 0xf := by
  unfold decode? at rejected
  simp only at rejected
  split at rejected
  case h_16 => exact .inr (.inr (.inr (.inr (.inr (word.last_family (by grind))))))
  case h_1 | h_6 | h_9 | h_10 | h_15 => omega
  all_goals cases rejected

/-- **A word that is not decoded is unknown**, outside of family zero, of the two comparisons of
registers, and of the second shift to the left. -/
theorem perform_of_unknown (rejected : decode? word = none) (noSystem : word.family ≠ 0x0)
    (noEqual : word.family ≠ 0x5) (noUnequal : word.family ≠ 0x9)
    (noShift : ¬ (word.family = 0x8 ∧ word.n = 0x8)) :
    machine.perform word = machine.unknown word := by
  rcases family_of_rejected rejected with family | family | family | family | family | family
  · exact absurd family noSystem
  · exact absurd family noEqual
  · simp only [decode?, family] at rejected
    simp only [perform, family]
    exact executeArithmetic_of_rejected machine rejected fun digit => noShift ⟨family, digit⟩
  · exact absurd family noUnequal
  · simp only [decode?, family] at rejected
    simp only [perform, family]
    exact executeKey_of_rejected machine rejected
  · simp only [decode?, family] at rejected
    simp only [perform, family]
    exact executeDevice_of_rejected machine rejected

/-- **A word is carried out as an instruction, does nothing, or is unknown**, on every machine
alike. -/
theorem word_cases (word : Word) :
    (∃ instruction, word.ReadsAs instruction) ∨
    (word.family = 0x0 ∧ word ≠ 0x00ee ∧ ∀ machine : Machine,
      machine.perform word = .done () machine) ∨
    (word.family = 0x8 ∨ word.family = 0xe ∨ word.family = 0xf) ∧ ∀ machine : Machine,
      machine.perform word = machine.unknown word := by
  cases decoded : decode? word with
  | some instruction => exact .inl ⟨instruction, Word.reads_of_decode decoded⟩
  | none =>
    by_cases noSystem : word.family = 0x0
    · refine .inr (.inl ⟨noSystem, ?_, fun machine => perform_of_idle machine noSystem decoded⟩)
      rintro rfl
      cases decoded
    by_cases equal : word.family = 0x5
    · exact .inl ⟨_, .skipIfEqual equal⟩
    by_cases unequal : word.family = 0x9
    · exact .inl ⟨_, .skipUnlessEqual unequal⟩
    by_cases shift : word.family = 0x8 ∧ word.n = 0x8
    · exact .inl ⟨_, .shiftLeft shift.1 (.inl shift.2)⟩
    · have family := family_of_rejected decoded
      exact .inr (.inr ⟨by omega, fun machine =>
        perform_of_unknown machine decoded noSystem equal unequal shift⟩)

/-- What a machine does with a word: what an instruction means, nothing, or to refuse it. -/
theorem perform_cases (word : Word) :
    (∃ instruction, word.ReadsAs instruction ∧
      machine.perform word = instruction.meaning machine) ∨
    (word.family = 0x0 ∧ word ≠ 0x00ee ∧ machine.perform word = .done () machine) ∨
    (word.family = 0x8 ∨ word.family = 0xe ∨ word.family = 0xf) ∧
      machine.perform word = machine.unknown word := by
  rcases word_cases word with ⟨instruction, reads⟩ | ⟨family, noReturn, idle⟩ | ⟨family, unknown⟩
  · exact .inl ⟨instruction, reads, perform_of_reads reads⟩
  · exact .inr (.inl ⟨family, noReturn, idle machine⟩)
  · exact .inr (.inr ⟨family, unknown machine⟩)

/-! ### Execution and decoding -/

/-- An instruction succeeds or goes out of bounds, it is never refused. -/
theorem meaning_answer (instruction : Instruction) :
    (instruction.meaning machine).answer = .ok () ∨
      (instruction.meaning machine).answer = .error .outOfBounds := by
  cases instruction with
  | returnFromCall | call | draw | storeDigits | storeRegisters | loadRegisters =>
    simp only [Instruction.meaning]
    split
    · exact .inl rfl
    · exact .inr rfl
  | _ => exact .inl rfl

end Machine

/-- The same outcome on a machine with another last word. -/
def Outcome.withLastWord (outcome : Outcome Unit) (word : Word) : Outcome Unit :=
  { outcome with machine.control.lastWord := word }

namespace Machine

open Instruction

/-- A word that compares two registers or shifts to the left does so with another last digit, too, if
that digit is read alike. -/
theorem execute_withLastDigit {word : Word} {operation : Nat → Nat → Instruction} {family n : Nat}
    (machine : Machine)
    (simple : operation = skipIfEqual ∨ operation = skipUnlessEqual ∨ operation = shiftLeft)
    (reads : word.ReadsAs (operation word.x word.y)) (isDigit : family < 16)
    (alike : ∀ other : Word, other.family = family → other.n = n % 16 →
      other.ReadsAs (operation other.x other.y)) :
    machine.execute word =
      (machine.execute (Word.withDigits family word.x word.y n)).withLastWord word := by
  have otherReads := alike _ (Word.family_withDigits isDigit word.x word.y n)
    (Word.n_withDigits isDigit word.x word.y n)
  obtain ⟨x, y⟩ := Word.registers_withDigits isDigit n word.x word.y
  rw [x, y] at otherReads
  unfold execute
  rw [perform_of_reads reads, perform_of_reads otherReads]
  rcases simple with rfl | rfl | rfl <;> rfl

/-- **Execution and decoding agree.** A word that is decoded is carried out as its instruction, with
the decoded operands, and so it is not unknown. A word that is not decoded is unknown, with three
exceptions: in family zero it does nothing, in the two families that compare registers it does what
it does with the last digit zero, and the second shift to the left does what the first one does. -/
theorem execute_agrees_with_decode (word : Word) (machine : Machine) :
    (∀ instruction, decode? word = some instruction →
      word.ReadsAs instruction ∧
        machine.execute word = instruction.meaning (machine.note word) ∧
        ∀ other, (machine.execute word).answer ≠ .error (.refused (.unknownWord other))) ∧
    (decode? word = none → word.family ≠ 0x0 → word.family ≠ 0x5 → word.family ≠ 0x9 →
      ¬ (word.family = 0x8 ∧ word.n = 0x8) →
        (machine.execute word).answer = .error (.refused (.unknownWord word))) ∧
    (decode? word = none → word.family = 0x0 →
      machine.execute word = .done () (machine.note word)) ∧
    (word.family = 0x5 → machine.execute word =
      (machine.execute (Word.withDigits 0x5 word.x word.y 0x0)).withLastWord word) ∧
    (word.family = 0x9 → machine.execute word =
      (machine.execute (Word.withDigits 0x9 word.x word.y 0x0)).withLastWord word) ∧
    (word.family = 0x8 → word.n = 0x8 → machine.execute word =
      (machine.execute (Word.withDigits 0x8 word.x word.y 0xe)).withLastWord word) := by
  refine ⟨fun instruction decoded => ?_, fun rejected noSystem noEqual noUnequal noShift => ?_,
    fun rejected family => perform_of_idle _ family rejected, fun family => ?_, fun family => ?_,
    fun family last => ?_⟩
  · have reads := Word.reads_of_decode decoded
    have performed : machine.execute word = instruction.meaning (machine.note word) :=
      perform_of_reads reads
    refine ⟨reads, performed, fun other unknown => ?_⟩
    rw [performed] at unknown
    rcases meaning_answer (machine.note word) instruction with success | fault
    · rw [success] at unknown
      cases unknown
    · rw [fault] at unknown
      cases unknown
  · unfold execute
    rw [perform_of_unknown _ rejected noSystem noEqual noUnequal noShift]
    rfl
  · exact execute_withLastDigit machine (.inl rfl) (.skipIfEqual family) (by decide)
      fun other same _ => .skipIfEqual same
  · exact execute_withLastDigit machine (.inr (.inl rfl)) (.skipUnlessEqual family) (by decide)
      fun other same _ => .skipUnlessEqual same
  · exact execute_withLastDigit machine (.inr (.inr rfl)) (.shiftLeft family (.inl last))
      (by decide) fun other same digit => .shiftLeft same (.inr digit)

/-- The second shift to the left, a last digit that does not matter, and an unknown word. -/
theorem execute_agrees_with_decode_shift :
    let machine := new (.ofSeed 0)
    decode? 0x8128 = none ∧
      machine.execute 0x8128 = (machine.execute 0x812e).withLastWord 0x8128 ∧
      decode? 0x512f = none ∧
      machine.execute 0x512f = (machine.execute 0x5120).withLastWord 0x512f ∧
      decode? 0x812f = none ∧
      (machine.execute 0x812f).answer = .error (.refused (.unknownWord 0x812f)) := by
  intro machine
  obtain ⟨-, -, -, -, -, shift⟩ := execute_agrees_with_decode 0x8128 machine
  obtain ⟨-, -, -, equal, -, -⟩ := execute_agrees_with_decode 0x512f machine
  obtain ⟨-, unknown, -⟩ := execute_agrees_with_decode 0x812f machine
  have rejected : decode? 0x812f = none := by decide
  exact ⟨by decide, shift rfl rfl, by decide, equal rfl, rejected,
    unknown rejected (by decide) (by decide) (by decide) (by decide)⟩

end Machine

end ChipEight
