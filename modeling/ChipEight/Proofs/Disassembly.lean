/-
**What the text of a word tells.**

A shift has an operand that its text does not show (`Word.SameShift`). Apart from that the text of a
word determines the word:

* `shown_eq_iff`: two words show the same if they are equal or the same shift, so by
  `Word.assemble_disassemble` these are the words with the same text;
* `disassemble_coloured`: the coloured text is the plain one in a single style, which tells known
  words from unknown ones;
* `execute_of_same_text`: words with the same text do the same;
* `disassembly_determines`: all of this together.
-/

import ChipEight.Proofs.Execution.Frame
import ChipEight.Proofs.Instruction.Assembler
import ChipEight.Proofs.Instruction.Reading

namespace ChipEight

/-! ### Styled texts -/

namespace Style

variable {style : Style} {first second : String}

/-- A style is undone by taking its escapes away. -/
theorem text_of_apply (same : style.apply first = style.apply second) : first = second := by
  have letters := congrArg String.toList same
  simp only [apply, String.toList_append, List.append_cancel_right_eq,
    List.append_cancel_left_eq] at letters
  exact String.toList_inj.mp letters

/-- Green and bold red differ in the fourth letter, whatever they are applied to. -/
theorem green_apply_ne_boldRed_apply (first second : String) :
    green.apply first ≠ boldRed.apply second := by
  intro same
  have letters := congrArg (fun text => text.toList[3]?) same
  simp only [apply, String.toList_append] at letters
  cases letters

end Style

/-! ### Shifts -/

open Instruction

/-- The two shifts. -/
inductive Shift where
  | right
  | left

namespace Shift

/-- The last digit of the word of a shift. -/
def digit : Shift → Nat
  | right => 0x6
  | left => 0xe

/-- A shift as an instruction. -/
def instruction : Shift → Nat → Nat → Instruction
  | right => shiftRight
  | left => shiftLeft

end Shift

/-- Whether a word is the given shift of some register. -/
def Word.IsShift (word : Word) (shift : Shift) : Prop :=
  word.family = 0x8 ∧ word.n = shift.digit

/-- **Whether two words shift the same register the same way.** Their third digits may differ. -/
def Word.SameShift (first second : Word) : Prop :=
  ∃ shift, first.IsShift shift ∧ second.IsShift shift ∧ first.x = second.x

/-! ### What an instruction shows -/

namespace Instruction

/-- An instruction that does not show all of its operands is a shift. -/
theorem shown_cases (instruction : Instruction) :
    instruction.shown = instruction ∨ ∃ shift x y, instruction = Shift.instruction shift x y := by
  cases instruction with
  | shiftRight x y => exact .inr ⟨.right, x, y, rfl⟩
  | shiftLeft x y => exact .inr ⟨.left, x, y, rfl⟩
  | _ => exact .inl rfl

theorem shown_shift (shift : Shift) (x y : Nat) :
    (shift.instruction x y).shown = shift.instruction x 0 := by
  cases shift <;> rfl

theorem masked_shown (instruction : Instruction) :
    instruction.shown.masked = instruction.masked.shown := by
  cases instruction <;> rfl

variable {first second : Instruction}

theorem shift_of_shown {shift : Shift} {x : Nat} (same : first.shown = shift.instruction x 0) :
    ∃ y, first = shift.instruction x y := by
  rcases first.shown_cases with all | ⟨other, register, y, rfl⟩
  · exact ⟨0, all.symm.trans same⟩
  · refine ⟨y, ?_⟩
    rw [shown_shift] at same
    cases shift <;> cases other <;> cases same <;> rfl

/-- Two instructions that show the same are equal, or the same shift of a register. -/
theorem eq_or_shift_of_shown (same : first.shown = second.shown) :
    first = second ∨
      ∃ shift x y z, first = Shift.instruction shift x y ∧ second = shift.instruction x z := by
  rcases first.shown_cases with all | ⟨shift, x, y, rfl⟩
  · rcases second.shown_cases with others | ⟨shift, x, z, rfl⟩
    · exact .inl (all.symm.trans (same.trans others))
    · obtain ⟨y, rfl⟩ := shift_of_shown (same.trans (shown_shift shift x z))
      exact .inr ⟨shift, x, y, z, rfl, rfl⟩
  · obtain ⟨z, rfl⟩ := shift_of_shown (same.symm.trans (shown_shift shift x y))
    exact .inr ⟨shift, x, y, z, rfl, rfl⟩

end Instruction

/-! ### What a word shows -/

namespace Word

variable {word first second : Word} {instruction : Instruction} {shift : Shift}

theorem decode_of_isShift (itself : word.IsShift shift) :
    decode? word = some (shift.instruction word.x word.y) := by
  cases shift <;> simp only [decode?, decodeArithmetic?, itself.1, itself.2, Shift.digit] <;> rfl

theorem isShift_of_decode {x y : Nat} (decoded : decode? word = some (shift.instruction x y)) :
    word.IsShift shift ∧ word.x.val = x := by
  have own := masked_of_decode decoded
  rw [← encode_of_decode decoded]
  cases shift with
  | right | left =>
    simp only [Shift.instruction, masked, shiftRight.injEq, shiftLeft.injEq] at own
    refine ⟨⟨Word.family_withDigits (by decide) x y _, Word.n_withDigits (by decide) x y _⟩, ?_⟩
    rw [Shift.instruction, encode, Word.x_withDigits (by decide)]
    exact own.1

theorem shown_of_decode (decoded : decode? word = some instruction) :
    word.shown = instruction.shown.encode := by
  unfold shown
  rw [decoded]

theorem shown_of_rejected (rejected : decode? word = none) : word.shown = word := by
  unfold shown
  rw [rejected]

/-- What a word shows is known if the word is known. -/
theorem decode_shown (decoded : decode? word = some instruction) :
    decode? word.shown = some instruction.shown := by
  rw [shown_of_decode decoded, decode_encode, masked_shown, masked_of_decode decoded]

/-- **Two words show the same if they are equal or the same shift**, and only then. -/
theorem shown_eq_iff : first.shown = second.shown ↔ first = second ∨ first.SameShift second := by
  constructor
  · intro same
    cases decoded : decode? first with
    | none =>
      rw [shown_of_rejected decoded] at same
      cases other : decode? second with
      | none => exact .inl (same.trans (shown_of_rejected other))
      | some instruction =>
        rw [same, decode_shown other] at decoded
        cases decoded
    | some instruction =>
      have known := decode_shown decoded
      cases other : decode? second with
      | none =>
        rw [same, shown_of_rejected other, other] at known
        cases known
      | some another =>
        rw [same, decode_shown other] at known
        rcases eq_or_shift_of_shown (Option.some.inj known).symm with
          equal | ⟨shift, x, y, z, rfl, rfl⟩
        · left
          rw [← encode_of_decode decoded, equal, encode_of_decode other]
        · obtain ⟨itself, register⟩ := isShift_of_decode decoded
          obtain ⟨otherItself, otherRegister⟩ := isShift_of_decode other
          exact .inr ⟨shift, itself, otherItself, Fin.ext (register.trans otherRegister.symm)⟩
  · rintro (rfl | ⟨shift, itself, other, register⟩)
    · rfl
    · rw [shown_of_decode (decode_of_isShift itself), shown_of_decode (decode_of_isShift other),
        shown_shift, shown_shift, register]

/-! ### Texts -/

/-- Words with the same plain text show the same. -/
theorem shown_of_disassemble
    (same : first.disassemble .plain = second.disassemble .plain) : first.shown = second.shown := by
  have assembled := assemble_disassemble first
  rw [same, assemble_disassemble second] at assembled
  exact (Option.some.inj assembled).symm

/-- The same shift of a register has the same text in every palette. -/
theorem disassemble_of_sameShift (palette : Palette) (same : first.SameShift second) :
    first.disassemble palette = second.disassemble palette := by
  obtain ⟨shift, itself, other, register⟩ := same
  unfold disassemble
  rw [decode_of_isShift itself, decode_of_isShift other, register]
  cases shift <;> rfl

/-- **The plain text determines a word** but for the unused operand of a shift. -/
theorem disassemble_plain_eq_iff :
    first.disassemble .plain = second.disassemble .plain ↔
      first = second ∨ first.SameShift second := by
  constructor
  · exact fun same => shown_eq_iff.mp (shown_of_disassemble same)
  · rintro (rfl | same)
    · rfl
    · exact disassemble_of_sameShift .plain same

/-- The style of the coloured text of a word. -/
def style (word : Word) : Style :=
  if (decode? word).isSome ∨ word.family = 0 then .green else .boldRed

/-- **The coloured text is the plain one in a single style.** -/
theorem disassemble_coloured (word : Word) :
    word.disassemble .coloured = word.style.apply (word.disassemble .plain) := by
  unfold disassemble style
  cases decode? word with
  | some instruction =>
    have known : (some instruction).isSome = true ∨ word.family = 0 := .inl rfl
    rw [if_pos known]
    exact congrArg Style.green.apply (Style.plain_apply _).symm
  | none =>
    by_cases family : word.family = 0
    · simp only [if_pos family, if_pos (Or.inr family)]
      exact congrArg Style.green.apply (Style.plain_apply _).symm
    · have unknown : ¬ ((none : Option Instruction).isSome = true ∨ word.family = 0) := by
        rintro (known | zero)
        · cases known
        · exact family zero
      simp only [if_neg family, if_neg unknown]
      exact congrArg Style.boldRed.apply (Style.plain_apply _).symm

theorem style_cases (word : Word) : word.style = .green ∨ word.style = .boldRed := by
  unfold style
  split
  · exact .inl rfl
  · exact .inr rfl

/-- Words with the same coloured text have the same style and the same plain text. -/
theorem disassemble_plain_of_coloured
    (same : first.disassemble .coloured = second.disassemble .coloured) :
    first.disassemble .plain = second.disassemble .plain := by
  rw [disassemble_coloured, disassemble_coloured] at same
  rcases first.style_cases with green | red <;> rcases second.style_cases with other | other
  · rw [green, other] at same
    exact Style.text_of_apply same
  · rw [green, other] at same
    exact absurd same (Style.green_apply_ne_boldRed_apply _ _)
  · rw [red, other] at same
    exact absurd same.symm (Style.green_apply_ne_boldRed_apply _ _)
  · rw [red, other] at same
    exact Style.text_of_apply same

/-- **The coloured text determines as much as the plain one.** -/
theorem disassemble_coloured_eq_iff :
    first.disassemble .coloured = second.disassemble .coloured ↔
      first = second ∨ first.SameShift second := by
  constructor
  · exact fun same => disassemble_plain_eq_iff.mp (disassemble_plain_of_coloured same)
  · rintro (rfl | same)
    · rfl
    · exact disassemble_of_sameShift .coloured same

end Word

/-! ### What a text does -/

namespace Machine

variable {first second : Word} (machine : Machine)

theorem withLastWord_eq_self {word : Word} {outcome : Outcome Unit}
    (itself : outcome.machine.control.lastWord = word) : outcome.withLastWord word = outcome := by
  subst itself
  rfl

/-- A word that is carried out becomes the last word. -/
theorem execute_lastWord (word : Word) : (machine.execute word).machine.control.lastWord = word :=
  (perform_effect word (machine.note word)).lastWord

/-- **The same shift of a register does the same**, whatever its third digit. -/
theorem execute_of_sameShift (same : first.SameShift second) :
    machine.execute first = (machine.execute second).withLastWord first := by
  obtain ⟨shift, itself, other, register⟩ := same
  unfold execute
  rw [perform_of_reads (Word.reads_of_decode (Word.decode_of_isShift itself)),
    perform_of_reads (Word.reads_of_decode (Word.decode_of_isShift other)), register]
  cases shift <;> rfl

/-- **Words with the same text do the same.** -/
theorem execute_of_same_text
    (same : first.disassemble .plain = second.disassemble .plain) :
    machine.execute first = (machine.execute second).withLastWord first := by
  rcases Word.disassemble_plain_eq_iff.mp same with rfl | shift
  · exact (withLastWord_eq_self (machine.execute_lastWord first)).symm
  · exact machine.execute_of_sameShift shift

end Machine

/-- **What the text of a word determines.** Two words have the same text, plain or coloured, only if
they are equal or the same shift of a register. The coloured text is the plain one in green, if the
word is known or belongs to family zero, and otherwise in bold red. Words with the same text end alike
on every machine, but for the record of the last word. -/
theorem disassembly_determines (first second : Word) :
    (first.disassemble .plain = second.disassemble .plain ↔
      first = second ∨ first.SameShift second) ∧
    (first.disassemble .coloured = second.disassemble .coloured ↔
      first = second ∨ first.SameShift second) ∧
    first.disassemble .coloured =
      (if (decode? first).isSome ∨ first.family = 0 then Style.green else Style.boldRed).apply
        (first.disassemble .plain) ∧
    (first.disassemble .plain = second.disassemble .plain ∨
        first.disassemble .coloured = second.disassemble .coloured →
      ∀ machine : Machine,
        machine.execute first = (machine.execute second).withLastWord first) := by
  refine ⟨Word.disassemble_plain_eq_iff, Word.disassemble_coloured_eq_iff,
    first.disassemble_coloured, ?_⟩
  rintro (same | same) machine
  · exact machine.execute_of_same_text same
  · exact machine.execute_of_same_text (Word.disassemble_plain_of_coloured same)

/-- Two shifts that show the same and do the same, and differ in the third digit. -/
theorem disassembly_determines_shift :
    (0x8126 : Word) ≠ 0x81f6 ∧
      (0x8126 : Word).disassemble .plain = (0x81f6 : Word).disassemble .plain ∧
      ∀ machine : Machine,
        machine.execute 0x8126 = (machine.execute 0x81f6).withLastWord 0x8126 := by
  obtain ⟨plain, -, -, alike⟩ := disassembly_determines 0x8126 0x81f6
  have same := plain.mpr (.inr ⟨.right, ⟨rfl, rfl⟩, ⟨rfl, rfl⟩, rfl⟩)
  exact ⟨by decide, same, alike (.inl same)⟩

end ChipEight
