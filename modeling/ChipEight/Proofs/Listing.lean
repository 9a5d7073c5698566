/-
**A listing read back.**

A listing has a line for each word of a program, and the colours do not hide anything: what is seen
of a coloured line is the plain line.

* `Word.printable_disassemble`: the text of a word has neither line breaks nor escapes;
* `Listing.lines_text`, `Listing.visible_text`: the lines of a listing, and what is seen of it;
* `Listing.bytesShown_line`: the word at the end of a line is read back;
* `Listing.ofProgram_drop`: a listing from a later word on is the rest of the listing;
* `Listing.listing_is_faithful`: all of this together, for the printed listing.
-/

import Mathlib.Data.List.Induction
import ChipEight.CommandLine.Report
import ChipEight.Proofs.Disassembly
import ChipEight.Proofs.Text

namespace ChipEight

/-! ### Texts of words -/

theorem Operand.printable_text {operand : Operand} (fits : operand.Fits) :
    Text.Printable operand.text.toList := by
  cases operand with
  | register number =>
    rw [text, String.toList_append]
    exact .append (by decide) (Numeral.printable_upperHex number)
  | byte value | height value =>
    rw [text, String.toList_append]
    exact .append (by decide) (Numeral.printable_hex _ _)
  | address value => exact Numeral.printable_hex _ _
  | named name =>
    have all : ∀ name ∈ names, Text.Printable name.toList := by decide
    exact all name fits

namespace Word

variable (word : Word)

theorem printable_mnemonic : Text.Printable word.mnemonic.toList := by
  have known (instruction : Instruction) : Text.Printable instruction.mnemonic.toList := by
    unfold Instruction.mnemonic
    split <;> decide
  unfold mnemonic
  split
  · exact known _
  · split <;> decide

/-- **The plain text of a word is printable.** -/
theorem printable_disassemble : Text.Printable (word.disassemble .plain).toList := by
  rw [disassemble_eq_layOut]
  by_cases bare : word.operands = []
  · rw [bare]
    exact word.printable_mnemonic
  · obtain ⟨blanks, line⟩ := Assembly.layOut_of_operands word.isMnemonic_mnemonic bare
    rw [line]
    refine word.printable_mnemonic.append ((Text.Printable.replicate_blank _).append ?_)
    refine Text.Printable.intercalate (by decide) fun text member => ?_
    obtain ⟨operand, isOperand, rfl⟩ := List.mem_map.mp member
    exact Operand.printable_text (word.operands_fit operand isOperand)

end Word

namespace Listing

/-! ### Words of a program -/

theorem length_words (program : List UInt8) : (words program).length = program.length / 2 := by
  induction program using List.twoStepInduction with
  | nil => rfl
  | singleton byte => simp [words]
  | cons_cons high low rest ih _ =>
    rw [words, List.length_cons, ih, List.length_cons, List.length_cons]
    omega

/-- Words that are left out are two bytes each. -/
theorem words_drop (program : List UInt8) (count : Nat) :
    words (program.drop (2 * count)) = (words program).drop count := by
  induction count generalizing program with
  | zero => rfl
  | succ count ih =>
    obtain _ | ⟨high, _ | ⟨low, rest⟩⟩ := program
    · rfl
    · rfl
    · rw [words, Nat.mul_succ]
      exact ih rest

/-- **The words of a program**, by its bytes. -/
theorem words_getElem? {program : List UInt8} {place : Nat} (near : place < program.length / 2) :
    ∃ high low, program[2 * place]? = some high ∧ program[2 * place + 1]? = some low ∧
      (words program)[place]? = some (Word.ofBytes high low) := by
  have first : program[2 * place]? = some program[2 * place] :=
    List.getElem?_eq_getElem (by omega)
  have second : program[2 * place + 1]? = some program[2 * place + 1] :=
    List.getElem?_eq_getElem (by omega)
  refine ⟨_, _, first, second, ?_⟩
  -- the word is the first one when the words in front of it are left out
  have behind := words_drop program place
  rw [List.drop_eq_getElem_cons (by omega), List.drop_eq_getElem_cons (by omega), words] at behind
  have found := congrArg (·[0]?) behind
  simpa using found.symm

/-- **The bytes of the words are those of the program**, but for a single one at the end. -/
theorem flatMap_words (program : List UInt8) :
    ∃ rest : List UInt8, rest.length ≤ 1 ∧
      (words program).flatMap (fun word => [word.highByte, word.lowByte]) ++ rest = program := by
  induction program using List.twoStepInduction with
  | nil => exact ⟨[], Nat.zero_le 1, rfl⟩
  | singleton byte => exact ⟨[byte], Nat.le_refl 1, by simp [words]⟩
  | cons_cons high low rest ih _ =>
    obtain ⟨last, short, same⟩ := ih
    obtain ⟨highByte, lowByte⟩ := Word.bytes_ofBytes high low
    refine ⟨last, short, ?_⟩
    rw [words, List.flatMap_cons, highByte, lowByte, List.append_assoc, same]
    rfl

/-! ### Lines -/

section Lines

variable (colouring : Colouring)

theorem length_lines (address : Nat) (words : List Word) :
    (lines colouring address words).length = words.length := by
  induction words generalizing address with
  | nil => rfl
  | cons word rest ih => rw [lines, List.length_cons, List.length_cons, ih]

/-- **The line of each word**, at its address. -/
theorem lines_getElem? (address : Nat) (words : List Word) (place : Nat) :
    (lines colouring address words)[place]? =
      words[place]?.map (line colouring (address + 2 * place)) := by
  induction words generalizing address place with
  | nil => rfl
  | cons word rest ih =>
    cases place with
    | zero => rfl
    | succ place =>
      rw [lines, List.getElem?_cons_succ, List.getElem?_cons_succ, ih, Nat.mul_succ,
        Nat.add_assoc address, Nat.add_comm 2]

/-- The lines of later words have later addresses. -/
theorem lines_drop (address : Nat) (words : List Word) (count : Nat) :
    lines colouring (address + 2 * count) (words.drop count) =
      (lines colouring address words).drop count := by
  refine List.ext_getElem? fun place => ?_
  rw [lines_getElem?, List.getElem?_drop, List.getElem?_drop, lines_getElem?, Nat.mul_add,
    Nat.add_assoc]

/-- The number of lines for a program. -/
theorem length_ofProgram (loadAddress offset : Nat) (program : List UInt8) :
    (ofProgram colouring loadAddress offset program).length =
      (program.length - min offset program.length) / 2 := by
  rw [ofProgram, length_lines, length_words, List.length_drop]

/-- **A listing from a later word on** is the rest of the whole listing. -/
theorem ofProgram_drop (loadAddress count : Nat) (program : List UInt8) :
    ofProgram colouring loadAddress (2 * count) program =
      (ofProgram colouring loadAddress 0 program).drop count := by
  rcases Nat.le_total (2 * count) program.length with inside | behind
  · rw [ofProgram, ofProgram, Nat.min_eq_left inside, Nat.zero_min, List.drop_zero, words_drop]
    exact lines_drop colouring loadAddress (words program) count
  · -- the offset is past the end, and so is the first word that is left
    rw [List.drop_eq_nil_of_le (by rw [length_ofProgram]; omega)]
    refine List.length_eq_zero_iff.mp ?_
    rw [length_ofProgram]
    omega

end Lines

/-- A line break stands behind each line. -/
theorem toList_text (lines : List String) :
    (text lines).toList = (lines.map String.toList).flatMap (· ++ ['\n']) := by
  rw [text, String.toList_join, List.flatMap_map, List.flatMap_map]
  simp only [String.toList_append]
  rfl

/-! ### Colours -/

/-- **Whether a colouring hides nothing**: it adds escapes to the plain texts of words and to their
digits, and nothing else. -/
structure Colouring.IsSilent (colouring : Colouring) : Prop where
  text (word : Word) : ∃ style : Style, style.IsSilent ∧
    word.disassemble colouring.palette = style.apply (word.disassemble .plain)
  digits : colouring.digits.IsSilent

theorem Colouring.isSilent_plain : plain.IsSilent where
  text _ := ⟨.plain, Style.isSilent_plain, (Style.plain_apply _).symm⟩
  digits := Style.isSilent_plain

theorem Colouring.isSilent_coloured : coloured.IsSilent where
  text word := by
    refine ⟨word.style, ?_, word.disassemble_coloured⟩
    rcases word.style_cases with green | red
    · rw [green]
      exact Style.isSilent_green
    · rw [red]
      exact Style.isSilent_boldRed
  digits := Style.isSilent_grey

/-- The two bytes of the word that a line ends with. -/
def bytesShown (line : List Char) : List UInt8 :=
  let shown := Text.visible line
  match Numeral.readDigits 16 0xffff 0 (shown.drop (shown.length - 4)) with
  | .ok value => [Word.highByte (UInt16.ofNat value), Word.lowByte (UInt16.ofNat value)]
  | .error _ => []

section Silent

variable {colouring : Colouring} (silent : colouring.IsSilent)

include silent

/-- **What is seen of a line is the plain line.** -/
theorem visible_line (address : Nat) (word : Word) (rest : List Char) :
    Text.visible ((line colouring address word).toList ++ rest) =
      (line .plain address word).toList ++ Text.visible rest := by
  obtain ⟨style, styleSilent, text⟩ := silent.text word
  have number := (Numeral.printable_hex 3 address).plain
  have digits := (Numeral.printable_hex 4 word.toNat).plain
  simp only [line, Colouring.plain, text, Style.plain_apply, String.toList_append, List.append_assoc]
  rw [Text.visible_append number, Text.visible_append (by decide),
    styleSilent.visible_apply word.printable_disassemble.plain, Text.visible_append (by decide),
    Word.text, silent.digits.visible_apply digits]

theorem solid_line (address : Nat) (word : Word) : '\n' ∉ (line colouring address word).toList := by
  obtain ⟨style, styleSilent, text⟩ := silent.text word
  simp only [line, text, String.toList_append, List.mem_append, not_or]
  exact ⟨⟨⟨⟨(Numeral.printable_hex 3 address).solid, by decide⟩,
    styleSilent.solid_apply word.printable_disassemble.solid⟩, by decide⟩,
    silent.digits.solid_apply (Numeral.printable_hex 4 word.toNat).solid⟩

/-- **The lines of a listing are read off its text.** -/
theorem lines_text (address : Nat) (words : List Word) :
    Text.lines (text (lines colouring address words)).toList =
      (lines colouring address words).map String.toList := by
  rw [toList_text]
  refine Text.lines_join fun shown member => ?_
  obtain ⟨shown, isLine, rfl⟩ := List.mem_map.mp member
  obtain ⟨place, found⟩ := List.getElem?_of_mem isLine
  rw [lines_getElem?] at found
  obtain ⟨word, -, rfl⟩ := Option.map_eq_some_iff.mp found
  exact solid_line silent _ word

/-- **What is seen of a listing is the plain listing.** -/
theorem visible_text (address : Nat) (words : List Word) :
    Text.visible (text (lines colouring address words)).toList =
      (text (lines .plain address words)).toList := by
  induction words generalizing address with
  | nil => rfl
  | cons word rest ih =>
    have cut (colouring : Colouring) : (text (lines colouring address (word :: rest))).toList =
        (line colouring address word).toList ++
          (['\n'] ++ (text (lines colouring (address + 2) rest)).toList) := by
      rw [toList_text, toList_text, lines, List.map_cons, List.flatMap_cons, List.append_assoc]
    rw [cut, cut, visible_line silent, Text.visible_append (by decide), ih]

/-- **The word of a line is read back.** -/
theorem bytesShown_line (address : Nat) (word : Word) :
    bytesShown (line colouring address word).toList = [word.highByte, word.lowByte] := by
  have bound := word.toNat_lt
  have four : (Numeral.hex 4 word.toNat).toList.length = 4 :=
    Numeral.length_hex (by decide) (by omega)
  have value : Numeral.readDigits 16 0xffff 0 (Numeral.hex 4 word.toNat).toList = .ok word.toNat :=
    Numeral.readDigits_hex 4 (by omega)
  -- what is seen of the line is the plain line, and that ends with the bare digits
  obtain ⟨before, seen⟩ : ∃ before, Text.visible (line colouring address word).toList =
      before ++ (Numeral.hex 4 word.toNat).toList := by
    have seen := visible_line silent address word []
    rw [List.append_nil] at seen
    refine ⟨(Numeral.hex 3 address ++ ": " ++ word.disassemble .plain ++ " ").toList, ?_⟩
    rw [seen, line, String.toList_append, Colouring.plain, Style.plain_apply, Word.text]
    exact List.append_nil _
  rw [bytesShown, seen]
  simp only [List.length_append, four, Nat.add_sub_cancel, List.drop_left, value]
  rw [UInt16.ofNat_toNat]

end Silent

/-! ### Printed listings -/

theorem isSilent_colouring (options : CommandLine.Options) : options.colouring.IsSilent := by
  unfold CommandLine.Options.colouring
  split
  · exact Colouring.isSilent_plain
  · exact Colouring.isSilent_coloured

/-- The bytes at the ends of the lines of words are those of the words. -/
theorem flatMap_bytesShown {colouring : Colouring} (silent : colouring.IsSilent) (address : Nat)
    (words : List Word) :
    ((lines colouring address words).map String.toList).flatMap bytesShown =
      words.flatMap fun word => [word.highByte, word.lowByte] := by
  induction words generalizing address with
  | nil => rfl
  | cons word rest ih =>
    rw [lines, List.map_cons, List.flatMap_cons, List.flatMap_cons, bytesShown_line silent, ih]

/-- **A printed listing is faithful to the program.** It has a line for each word behind the offset.
The line shows the address, which goes on past sixteen bits, the text of the word and its digits, so
that the digits of all lines give the program back, up to a last single byte. A listing from a later
word on is the rest of the whole one, and a coloured listing is seen as the plain one. -/
theorem listing_is_faithful (options : CommandLine.Options) (program : List UInt8) :
    let start := min options.offset program.length
    let printed := (CommandLine.listing options program).toList
    let count := (program.length - start) / 2
    (∀ arguments contents file, CommandLine.parse arguments = .ok (.list file options) →
      contents file = .ok program →
      CommandLine.report arguments contents = ⟨0, CommandLine.listing options program, ""⟩) ∧
    (Text.lines printed).length = count ∧
    printed = (Text.lines printed).flatMap (· ++ ['\n']) ∧
    (∀ place < count, ∃ high low,
      let address := options.loadAddress + start + 2 * place
      let word := Word.ofBytes high low
      program[start + 2 * place]? = some high ∧ program[start + 2 * place + 1]? = some low ∧
        (Text.lines printed)[place]? = some
          (Numeral.hex 3 address ++ ": " ++ word.disassemble options.colouring.palette ++ " " ++
            options.colouring.digits.apply (Numeral.hex 4 word.toNat)).toList ∧
        3 ≤ (Numeral.hex 3 address).toList.length ∧
        Numeral.readDigits 16 address 0 (Numeral.hex 3 address).toList = .ok address ∧
        (Numeral.hex 4 word.toNat).toList.length = 4) ∧
    (∃ rest : List UInt8, rest.length ≤ 1 ∧
      (Text.lines printed).flatMap bytesShown ++ rest = program.drop start) ∧
    (options.offset % 2 = 0 → Text.lines printed =
      (Text.lines (CommandLine.listing { options with offset := 0 } program).toList).drop
        (options.offset / 2)) ∧
    Text.visible (CommandLine.listing { options with plain := false } program).toList =
      (CommandLine.listing { options with plain := true } program).toList := by
  intro start printed count
  have silent := isSilent_colouring options
  have shown (options : CommandLine.Options) :
      Text.lines (CommandLine.listing options program).toList =
        (ofProgram options.colouring options.loadAddress options.offset program).map
          String.toList :=
    lines_text (isSilent_colouring options) _ _
  have here : Text.lines printed = _ := shown options
  refine ⟨fun arguments contents file asked held => ?_, ?_, ?_, fun place near => ?_, ?_,
    fun even => ?_, visible_text Colouring.isSilent_coloured _ _⟩
  · simp only [CommandLine.report, asked, held]
  · rw [here, List.length_map, length_ofProgram]
  · rw [here, ← toList_text]
    rfl
  · have inside : place < (program.drop start).length / 2 := by
      rw [List.length_drop]
      exact near
    obtain ⟨high, low, first, second, word⟩ := words_getElem? inside
    have bound := (Word.ofBytes high low).toNat_lt
    rw [List.getElem?_drop] at first second
    refine ⟨high, low, first, second, ?_, Numeral.le_length_hex 3 _,
      Numeral.readDigits_hex 3 (Nat.le_refl _), Numeral.length_hex (by decide) (by omega)⟩
    rw [here, List.getElem?_map, ofProgram, lines_getElem?, word]
    rfl
  · obtain ⟨rest, short, same⟩ := flatMap_words (program.drop start)
    exact ⟨rest, short, by rw [here, ofProgram, flatMap_bytesShown silent, same]⟩
  · have whole : options.offset = 2 * (options.offset / 2) := by omega
    rw [here, shown, whole, ofProgram_drop, List.map_drop]
    simp only [Nat.mul_div_cancel_left _ (show 0 < 2 by decide)]
    rfl

/-- A listing whose addresses go on past sixteen bits, from the second word on and without the byte at
the end. -/
theorem listing_is_faithful_far :
    let program : List UInt8 := [0x00, 0xe0, 0x12, 0x34, 0x56]
    let options : CommandLine.Options := ⟨false, some "rom", 0xffff, 2, false⟩
    let printed := (CommandLine.listing options program).toList
    CommandLine.report ["-l", "0xffff", "--offset=2", "rom"] (fun _ => .ok program) =
        ⟨0, CommandLine.listing options program, ""⟩ ∧
      (Text.lines printed).length = 1 ∧
      (Text.lines printed)[0]?.map Text.visible = some "10001: jp     234 1234".toList ∧
      Text.lines printed =
        (Text.lines (CommandLine.listing { options with offset := 0 } program).toList).drop 1 := by
  intro program options printed
  obtain ⟨reported, count, -, shown, -, later, -⟩ := listing_is_faithful options program
  have offset : options.offset = 2 := rfl
  have asked : CommandLine.parse ["-l", "0xffff", "--offset=2", "rom"] =
      .ok (.list "rom" options) := by
    decide +kernel
  refine ⟨reported _ (fun _ => .ok program) "rom" asked rfl,
    count.trans (show _ = 1 by decide), ?_, ?_⟩
  · obtain ⟨high, low, first, second, line, -⟩ := shown 0 (by decide)
    cases first
    cases second
    rw [line]
    decide +kernel
  · rw [offset] at later
    exact later rfl

end Listing

end ChipEight
