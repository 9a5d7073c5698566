/-
**Reading assembly notation.**

An assembler for the lines that disassembly writes. A line is cut into its mnemonic and the texts of
its operands, every text is read as an operand, and both together name a word.

* `Operand.read_text`: an operand is read from its text;
* `Assembly.mnemonicOf_layOut`, `Assembly.operandsOf_layOut`: a line is cut where it was put together;
* `Instruction.ofParts_parts`: mnemonic and operands name the instruction, but for the second operand
  of a shift, which no line shows;
* `Word.assemble_disassemble`: assembling the plain text of a word gives the word that it shows.
-/

import Mathlib.Data.List.Basic
import Mathlib.Tactic.Common
import ChipEight.Proofs.Instruction.Coding
import ChipEight.Proofs.Numeral

namespace ChipEight

/-! ### Operands -/

namespace Operand

/-- The names that stand for operands of their own. -/
def names : List String :=
  ["I", "[I]", "DT", "ST", "K", "F", "B"]

/-- Whether an operand is one that a word can hold. -/
def Fits : Operand → Prop
  | register number => number < 16
  | height value => value.toNat < 16
  | named name => name ∈ names
  | byte _ | address _ => True

/-- The value of some digits. -/
def number? (digits : List Char) : Option Nat :=
  (Numeral.readDigits 16 0xffff 0 digits).toOption

/-- Reads an operand. A register begins with its letter, a height has one digit behind the number
sign and a byte two, and a name has letters in upper case, which an address never has. -/
def read? : List Char → Option Operand
  | 'v' :: digits => (number? digits).map register
  | ['#', digit] => (number? [digit]).map fun value => height (UInt8.ofNat value)
  | '#' :: digits => (number? digits).map fun value => byte (UInt8.ofNat value)
  | text =>
    if text.any Char.isUpper then some (named (String.ofList text))
    else (number? text).map fun value => address (UInt16.ofNat value)

theorem number_hex {value : Nat} (width : Nat) (small : value ≤ 0xffff) :
    number? (Numeral.hex width value).toList = some value := by
  unfold number?
  rw [Numeral.readDigits_hex width small]
  rfl

/-- A text of digits alone is read as an address. -/
theorem read_of_digits {text : List Char}
    (digits : ∀ character ∈ text, ∃ digit < 16, character = Nat.digitChar digit) :
    read? text = (number? text).map fun value => address (UInt16.ofNat value) := by
  unfold read?
  split
  · exact absurd (digits 'v' List.mem_cons_self) (by decide)
  · exact absurd (digits '#' List.mem_cons_self) (by decide)
  · exact absurd (digits '#' List.mem_cons_self) (by decide)
  · have lower : ¬ text.any Char.isUpper = true := by
      rw [List.any_eq_true]
      rintro ⟨character, member, upper⟩
      obtain ⟨digit, small, rfl⟩ := digits character member
      have all : ∀ digit < 16, (Nat.digitChar digit).isUpper = false := by decide
      rw [all digit small] at upper
      cases upper
    rw [if_neg lower]

/-- **An operand is read from its text.** -/
theorem read_text {operand : Operand} (fits : operand.Fits) :
    read? operand.text.toList = some operand := by
  cases operand with
  | register number =>
    have small : number < 16 := fits
    have digits : number? (Numeral.upperHex number).toList = some number := by
      unfold number?
      rw [Numeral.readDigits_upperHex (by omega)]
      rfl
    rw [text, String.toList_append]
    show (number? (Numeral.upperHex number).toList).map register = _
    rw [digits]
    rfl
  | byte value =>
    have bound := value.toNat_lt
    have digits := number_hex 2 (show value.toNat ≤ 0xffff by omega)
    -- a byte has two digits, so it is not read as a height
    obtain ⟨first, second, two⟩ := List.length_eq_two.mp
      (Numeral.length_hex (show 0 < 2 by decide) (show value.toNat < 16 ^ 2 by omega))
    rw [text, String.toList_append, two]
    show (number? [first, second]).map _ = _
    rw [← two, digits, Option.map_some, UInt8.ofNat_toNat]
  | height value =>
    have small : value.toNat < 16 := fits
    have digits := number_hex 1 (show value.toNat ≤ 0xffff by omega)
    obtain ⟨digit, one⟩ := List.length_eq_one_iff.mp
      (Numeral.length_hex (show 0 < 1 by decide) (show value.toNat < 16 ^ 1 by omega))
    rw [text, String.toList_append, one]
    show (number? [digit]).map _ = _
    rw [← one, digits, Option.map_some, UInt8.ofNat_toNat]
  | address value =>
    have bound := value.toNat_lt
    rw [text, read_of_digits fun character => Numeral.exists_digit_of_mem_hex,
      number_hex 3 (by omega), Option.map_some, UInt16.ofNat_toNat]
  | named name =>
    have all : ∀ name ∈ names, read? name.toList = some (named name) := by decide
    exact all name fits

/-- No operand contains a blank or a comma. -/
theorem solid_text {operand : Operand} (fits : operand.Fits) {character : Char}
    (member : character ∈ operand.text.toList) : character ≠ ' ' ∧ character ≠ ',' := by
  have lower : ∀ digit < 16, Nat.digitChar digit ≠ ' ' ∧ Nat.digitChar digit ≠ ',' := by decide
  have upper : ∀ digit < 16,
      (Nat.digitChar digit).toUpper ≠ ' ' ∧ (Nat.digitChar digit).toUpper ≠ ',' := by decide
  cases operand with
  | register number =>
    rw [text, String.toList_append] at member
    rcases List.mem_cons.mp member with rfl | digits
    · decide
    · obtain ⟨digit, small, rfl⟩ := Numeral.exists_digit_of_mem_upperHex digits
      exact upper digit small
  | byte value | height value =>
    rw [text, String.toList_append] at member
    rcases List.mem_cons.mp member with rfl | digits
    · decide
    · obtain ⟨digit, small, rfl⟩ := Numeral.exists_digit_of_mem_hex digits
      exact lower digit small
  | address value =>
    obtain ⟨digit, small, rfl⟩ := Numeral.exists_digit_of_mem_hex member
    exact lower digit small
  | named name =>
    have all : ∀ name ∈ names, ' ' ∉ name.toList ∧ ',' ∉ name.toList := by decide
    obtain ⟨noBlank, noComma⟩ := all name fits
    constructor
    · rintro rfl
      exact noBlank member
    · rintro rfl
      exact noComma member

theorem mapM_read {operands : List Operand} (fit : ∀ operand ∈ operands, operand.Fits) :
    (operands.map fun operand => operand.text.toList).mapM read? = some operands := by
  induction operands with
  | nil => rfl
  | cons first rest ih =>
    rw [List.map_cons, List.mapM_cons, read_text (fit first List.mem_cons_self),
      ih fun operand member => fit operand (List.mem_cons_of_mem _ member)]
    rfl

end Operand

/-! ### Lines -/

namespace Assembly

/-- The mnemonic of a line: everything before the first blank. -/
def mnemonicOf (line : List Char) : List Char :=
  line.takeWhile (· != ' ')

/-- The texts of the operands of a line: what follows the mnemonic, cut at the commas. -/
def operandsOf (line : List Char) : List (List Char) :=
  if ' ' ∈ line then ((line.dropWhile (· != ' ')).filter (· != ' ')).splitOn ',' else []

/-- Whether a mnemonic leaves a blank within the seven columns that it is filled up to. -/
def IsMnemonic (mnemonic : String) : Prop :=
  ' ' ∉ mnemonic.toList ∧ mnemonic.length < 7

instance (mnemonic : String) : Decidable (IsMnemonic mnemonic) :=
  inferInstanceAs (Decidable (_ ∧ _))

theorem filter_of_solid {text : List Char} (solid : ' ' ∉ text) :
    text.filter (· != ' ') = text := by
  rw [List.filter_eq_self]
  intro character member
  exact bne_iff_ne.mpr fun blank => solid (blank ▸ member)

/-- Without its blanks, a list of operands is separated by bare commas. -/
theorem filter_intercalate {texts : List (List Char)} (solid : ∀ text ∈ texts, ' ' ∉ text) :
    ([',', ' '].intercalate texts).filter (· != ' ') = [','].intercalate texts := by
  induction texts with
  | nil => rfl
  | cons first rest ih =>
    have firstSolid := filter_of_solid (solid first List.mem_cons_self)
    have restSolid := ih fun text member => solid text (List.mem_cons_of_mem _ member)
    cases rest with
    | nil => rw [List.intercalate_singleton, List.intercalate_singleton, firstSolid]
    | cons second others =>
      rw [List.intercalate_cons_cons, List.intercalate_cons_cons, List.filter_append,
        List.filter_append, firstSolid, restSolid]
      rfl

section Cut

variable {mnemonic : String} {operands : List Operand} (isMnemonic : IsMnemonic mnemonic)
  (fit : ∀ operand ∈ operands, operand.Fits)

/-- A line with operands: the mnemonic, at least one blank, and the operands. -/
theorem layOut_of_operands (isMnemonic : IsMnemonic mnemonic) (nonempty : operands ≠ []) :
    ∃ blanks, (Instruction.layOut mnemonic operands).toList = mnemonic.toList ++
      (List.replicate (blanks + 1) ' ' ++
        [',', ' '].intercalate (operands.map fun operand => operand.text.toList)) := by
  have short := isMnemonic.2
  refine ⟨6 - mnemonic.length, ?_⟩
  have blanks : 6 - mnemonic.length + 1 = 7 - mnemonic.length := by omega
  rw [Instruction.layOut, String.toList_append, Column.left, String.toList_append,
    Column.blanks, String.toList_ofList, String.toList_intercalate, List.map_map, blanks,
    List.append_assoc]
  · rfl
  · exact nonempty

include isMnemonic

/-- **A line is cut behind its mnemonic.** -/
theorem mnemonicOf_layOut :
    mnemonicOf (Instruction.layOut mnemonic operands).toList = mnemonic.toList := by
  have solid : ∀ character ∈ mnemonic.toList, (character != ' ') = true :=
    fun character member => bne_iff_ne.mpr fun blank => isMnemonic.1 (blank ▸ member)
  unfold mnemonicOf
  by_cases bare : operands = []
  · subst bare
    exact List.takeWhile_eq_self_iff.mpr solid
  · obtain ⟨blanks, line⟩ := layOut_of_operands isMnemonic bare
    rw [line, List.takeWhile_append_of_pos solid]
    exact List.append_nil _

include fit

/-- **A line is cut between its operands.** -/
theorem operandsOf_layOut :
    operandsOf (Instruction.layOut mnemonic operands).toList =
      operands.map fun operand => operand.text.toList := by
  unfold operandsOf
  by_cases bare : operands = []
  · subst bare
    exact if_neg isMnemonic.1
  · obtain ⟨blanks, line⟩ := layOut_of_operands isMnemonic bare
    have solid : ∀ character ∈ mnemonic.toList, (character != ' ') = true :=
      fun character member => bne_iff_ne.mpr fun blank => isMnemonic.1 (blank ▸ member)
    have texts : ∀ text ∈ operands.map (fun operand => operand.text.toList),
        ' ' ∉ text ∧ ',' ∉ text := by
      intro text member
      obtain ⟨operand, isOperand, rfl⟩ := List.mem_map.mp member
      have plain := @Operand.solid_text operand (fit operand isOperand)
      exact ⟨fun blank => (plain blank).1 rfl, fun comma => (plain comma).2 rfl⟩
    rw [line, if_pos (by simp), List.dropWhile_append_of_pos solid, List.replicate_succ,
      List.cons_append, List.dropWhile_cons_of_neg (by decide), ← List.cons_append,
      ← List.replicate_succ, List.filter_append, filter_intercalate fun text member =>
        (texts text member).1]
    have noBlanks : (List.replicate (blanks + 1) ' ').filter (· != ' ') = [] := by
      rw [List.filter_replicate]
      rfl
    rw [noBlanks, List.nil_append]
    exact List.splitOn_intercalate ',' (fun text member => (texts text member).2)
      fun empty => bare (List.map_eq_nil_iff.mp empty)

end Cut

end Assembly

/-! ### Instructions -/

namespace Instruction

/-- The instruction that a mnemonic and its operands name. -/
def ofParts? : String → List Operand → Option Instruction
  | "cls", [] => some clearScreen
  | "ret", [] => some returnFromCall
  | "jp", [.address target] => some (jump target)
  | "jp", [.register 0, .address target] => some (jumpFrom target)
  | "call", [.address target] => some (call target)
  | "se", [.register x, .byte value] => some (skipIfByte x value)
  | "se", [.register x, .register y] => some (skipIfEqual x y)
  | "sne", [.register x, .byte value] => some (skipUnlessByte x value)
  | "sne", [.register x, .register y] => some (skipUnlessEqual x y)
  | "add", [.register x, .byte value] => some (addByte x value)
  | "add", [.register x, .register y] => some (add x y)
  | "add", [.named "I", .register x] => some (addIndex x)
  | "or", [.register x, .register y] => some (bitOr x y)
  | "and", [.register x, .register y] => some (bitAnd x y)
  | "xor", [.register x, .register y] => some (bitXor x y)
  | "sub", [.register x, .register y] => some (subtract x y)
  | "subn", [.register x, .register y] => some (subtractFrom x y)
  | "shr", [.register x] => some (shiftRight x 0)
  | "shl", [.register x] => some (shiftLeft x 0)
  | "rnd", [.register x, .byte mask] => some (random x mask)
  | "drw", [.register x, .register y, .height value] => some (draw x y value)
  | "skp", [.register x] => some (skipIfKey x)
  | "sknp", [.register x] => some (skipUnlessKey x)
  | "ld", [.register x, .byte value] => some (loadByte x value)
  | "ld", [.register x, .register y] => some (copy x y)
  | "ld", [.named "I", .address value] => some (setIndex value)
  | "ld", [.register x, .named "DT"] => some (readDelay x)
  | "ld", [.register x, .named "K"] => some (awaitKey x)
  | "ld", [.named "DT", .register x] => some (setDelay x)
  | "ld", [.named "ST", .register x] => some (setSound x)
  | "ld", [.named "F", .register x] => some (pointAtGlyph x)
  | "ld", [.named "B", .register x] => some (storeDigits x)
  | "ld", [.named "[I]", .register x] => some (storeRegisters x)
  | "ld", [.register x, .named "[I]"] => some (loadRegisters x)
  | _, _ => none

/-- What a line shows of an instruction: everything but the second operand of a shift. -/
def shown : Instruction → Instruction
  | shiftRight x _ => shiftRight x 0
  | shiftLeft x _ => shiftLeft x 0
  | instruction => instruction

/-- **Mnemonic and operands name what a line shows of an instruction.** -/
theorem ofParts_parts (instruction : Instruction) :
    ofParts? instruction.mnemonic instruction.operands = some instruction.shown := by
  cases instruction <;> rfl

theorem isMnemonic_mnemonic (instruction : Instruction) :
    Assembly.IsMnemonic instruction.mnemonic := by
  unfold mnemonic
  split <;> decide

/-- Operands that are cut down to their fields fit. -/
theorem masked_operands_fit (instruction : Instruction) :
    ∀ operand ∈ instruction.masked.operands, operand.Fits := by
  have digit (number : Nat) : number % 16 < 16 := Nat.mod_lt number (by decide)
  cases instruction with
  | draw x y value =>
    have height : (UInt8.ofNat (value.toNat % 16)).toNat < 16 := by
      rw [UInt8.toNat_ofNat']
      omega
    intro operand member
    simp only [masked, operands, List.mem_cons, List.not_mem_nil, or_false] at member
    rcases member with rfl | rfl | rfl
    · exact digit x
    · exact digit y
    · exact height
  | _ => simp [masked, operands, Operand.Fits, Operand.names, digit]

end Instruction

/-! ### Words -/

namespace Word

open Instruction

/-- The mnemonic of the line of a word. -/
def mnemonic (word : Word) : String :=
  match decode? word with
  | some instruction => instruction.mnemonic
  | none => if word.family = 0 then "sys" else "inval"

/-- The operands of the line of a word. An unknown word is its own operand. -/
def operands (word : Word) : List Operand :=
  match decode? word with
  | some instruction => instruction.operands
  | none => if word.family = 0 then [.address word.address] else [.address word]

/-- The word that a mnemonic and its operands name. -/
def ofParts? : String → List Operand → Option Word
  | "sys", [.address target] => some target
  | "inval", [.address word] => some word
  | mnemonic, operands => (Instruction.ofParts? mnemonic operands).map encode

/-- The word of a line in assembly notation. -/
def assemble? (line : String) : Option Word := do
  let operands ← (Assembly.operandsOf line.toList).mapM Operand.read?
  ofParts? (String.ofList (Assembly.mnemonicOf line.toList)) operands

/-- What the line of a word shows of it. -/
def shown (word : Word) : Word :=
  match decode? word with
  | some instruction => instruction.shown.encode
  | none => word

variable (word : Word)

/-- A word outside of family zero has four digits without any filling. -/
theorem text_of_family (family : word.family ≠ 0) : word.text = Numeral.hex 3 word.toNat := by
  have large : ¬ (Numeral.hexDigits word.toNat).length ≤ 3 := by
    rw [Numeral.hexDigits, Nat.length_toDigits_le_iff (by decide) (by decide)]
    unfold Word.family at family
    omega
  unfold text Numeral.hex List.leftpad
  congr 3
  omega

/-- The plain line of a word is laid out like that of an instruction. -/
theorem disassemble_eq_layOut :
    word.disassemble .plain = layOut word.mnemonic word.operands := by
  unfold disassemble mnemonic operands
  cases decode? word with
  | some instruction => exact Style.plain_apply _
  | none =>
    by_cases family : word.family = 0
    · simp only [if_pos family]
      exact Style.plain_apply _
    · simp only [if_neg family]
      rw [text_of_family word family]
      exact Style.plain_apply _

theorem isMnemonic_mnemonic : Assembly.IsMnemonic word.mnemonic := by
  unfold mnemonic
  split
  · exact Instruction.isMnemonic_mnemonic _
  · split <;> decide

theorem operands_fit : ∀ operand ∈ word.operands, operand.Fits := by
  unfold operands
  split
  · rename_i instruction decoded
    rw [← masked_of_decode decoded]
    exact masked_operands_fit instruction
  · split <;> simp [Operand.Fits]

/-- **Mnemonic and operands name what the line of a word shows.** -/
theorem ofParts_parts : ofParts? word.mnemonic word.operands = some word.shown := by
  unfold mnemonic operands shown
  cases decode? word with
  | some instruction =>
    have named : (Instruction.ofParts? instruction.mnemonic instruction.operands).map encode =
        some instruction.shown.encode := by
      rw [Instruction.ofParts_parts]
      rfl
    -- no instruction has one of the two mnemonics that are left to other words
    cases instruction <;> exact named
  | none =>
    by_cases family : word.family = 0
    · simp only [if_pos family, ofParts?]
      congr 1
      rw [← UInt16.toNat_inj, address_toNat]
      unfold Word.family at family
      omega
    · simp only [if_neg family, ofParts?]

/-- **Assembling the plain line of a word gives the word that the line shows.** -/
theorem assemble_disassemble : assemble? (word.disassemble .plain) = some word.shown := by
  unfold assemble?
  rw [disassemble_eq_layOut,
    Assembly.operandsOf_layOut (isMnemonic_mnemonic word) (operands_fit word),
    Operand.mapM_read (operands_fit word), Assembly.mnemonicOf_layOut (isMnemonic_mnemonic word),
    String.ofList_toList]
  exact ofParts_parts word

end Word

end ChipEight
