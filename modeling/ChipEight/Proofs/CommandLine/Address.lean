/-
**The texts that are read as an address.**

A load address is a hexadecimal numeral of sixteen bits behind any number of `0x` marks. All marks
are taken from the front before the numeral is read, so a mark can stand neither behind the sign nor
behind a digit:

* `marks`: a number of marks, with `dropMarks_eq_iff` for what is left of a text without them;
* `readAddress_eq_iff`: what is read is decided by the grammar of numerals;
* `readAddress_marks_append`: written addresses are read back, with any number of marks;
* `readAddress_language`: the accepted texts and the refused ones.
-/

import ChipEight.CommandLine.Options
import ChipEight.Proofs.Numeral.Grammar

namespace ChipEight.CommandLine

/-! ### Marks -/

/-- The mark of a hexadecimal number. -/
def mark : List Char :=
  ['0', 'x']

/-- A number of marks, one behind the other. -/
def marks (count : Nat) : List Char :=
  (List.replicate count mark).flatten

theorem dropMarks_append (count : Nat) (rest : List Char) :
    dropMarks (marks count ++ rest) = dropMarks rest := by
  induction count with
  | zero => rfl
  | succ count ih => exact ih

/-- A text that begins with no mark stays as it is. -/
theorem dropMarks_of_bare {text : List Char} (bare : ¬ mark <+: text) : dropMarks text = text := by
  unfold dropMarks
  split
  next rest => exact absurd ⟨rest, rfl⟩ bare
  next => rfl

/-- Every text is as many marks as can be taken from its front, and a rest. -/
theorem exists_marks (text : List Char) :
    ∃ count, text = marks count ++ dropMarks text ∧ ¬ mark <+: dropMarks text := by
  fun_induction dropMarks text with
  | case1 rest ih =>
    obtain ⟨count, cut, bare⟩ := ih
    exact ⟨count + 1, congrArg (mark ++ ·) cut, bare⟩
  | case2 text unmarked =>
    refine ⟨0, rfl, ?_⟩
    rintro ⟨rest, rfl⟩
    exact unmarked rest rfl

/-- **What is left without the marks** is what stands behind all that can be taken. -/
theorem dropMarks_eq_iff {text rest : List Char} :
    dropMarks text = rest ↔ ∃ count, text = marks count ++ rest ∧ ¬ mark <+: rest := by
  constructor
  · rintro rfl
    exact exists_marks text
  · rintro ⟨count, rfl, bare⟩
    rw [dropMarks_append, dropMarks_of_bare bare]

/-- No mark stands in front of digits, or in front of their sign. -/
theorem bare_of_denotes {sign digits : List Char} {value : Nat} (signed : sign = [] ∨ sign = ['+'])
    (denotes : Numeral.Denotes 16 digits value) : ¬ mark <+: sign ++ digits := by
  rintro ⟨rest, split⟩
  rcases signed with rfl | rfl
  · obtain ⟨values, each, -⟩ := denotes
    rw [List.nil_append] at split
    subst split
    -- the second character of the mark is no digit
    obtain _ | ⟨-, _ | ⟨second, -⟩⟩ := each
    have noDigit : Numeral.digit? 16 'x' = none := by decide
    exact (Numeral.digit_eq_none_iff (Nat.le_refl 16)).mp noDigit _ second
  · exact absurd (List.cons.inj split).1 (by decide)

/-! ### Addresses -/

/-- **An address is read behind all marks**, by the grammar of numerals. -/
theorem readAddress_eq_iff {text : String} {answer : Except Numeral.Malformed Nat} :
    readAddress text = answer ↔
      ∃ count rest, text.toList = marks count ++ rest ∧ ¬ mark <+: rest ∧
        Numeral.Reads 16 0xffff rest answer := by
  rw [readAddress, Numeral.read_eq_iff (Nat.le_refl 16) (by decide)]
  constructor
  · intro reads
    obtain ⟨count, cut, bare⟩ := exists_marks text.toList
    exact ⟨count, _, cut, bare, reads⟩
  · rintro ⟨count, rest, cut, bare, reads⟩
    rwa [dropMarks_eq_iff.mpr ⟨count, cut, bare⟩]

/-- **The texts that are accepted** as an address. -/
theorem readAddress_eq_ok_iff {text : String} {value : Nat} :
    readAddress text = .ok value ↔
      ∃ count sign digits, text.toList = marks count ++ (sign ++ digits) ∧
        ¬ mark <+: sign ++ digits ∧ (sign = [] ∨ sign = ['+']) ∧ digits ≠ [] ∧
        Numeral.Denotes 16 digits value ∧ value ≤ 0xffff := by
  rw [readAddress, Numeral.read_eq_ok_iff (Nat.le_refl 16) (by decide)]
  constructor
  · rintro ⟨sign, digits, left, numeral⟩
    obtain ⟨count, cut, bare⟩ := dropMarks_eq_iff.mp left
    exact ⟨count, sign, digits, cut, bare, numeral⟩
  · rintro ⟨count, sign, digits, cut, bare, numeral⟩
    exact ⟨sign, digits, dropMarks_eq_iff.mpr ⟨count, cut, bare⟩, numeral⟩

/-- The texts with nothing to read are the marks alone. -/
theorem readAddress_eq_empty_iff {text : String} :
    readAddress text = .error .empty ↔ ∃ count, text.toList = marks count := by
  rw [readAddress, Numeral.read_eq_empty_iff (Nat.le_refl 16) (by decide), dropMarks_eq_iff]
  refine exists_congr fun count => ?_
  rw [List.append_nil]
  exact and_iff_left fun bare => absurd (List.prefix_nil.mp bare) (by decide)

/-- **An address is read back from its digits**, behind any number of marks. -/
theorem readAddress_marks_append (count : Nat) {digits : String} {value : Nat}
    (nonempty : digits.toList ≠ []) (denotes : Numeral.Denotes 16 digits.toList value)
    (within : value ≤ 0xffff) :
    readAddress (String.ofList (marks count) ++ digits) = .ok value := by
  refine readAddress_eq_ok_iff.mpr
    ⟨count, [], digits.toList, ?_, ?_, .inl rfl, nonempty, denotes, within⟩
  · rw [String.toList_append, String.toList_ofList]
    rfl
  · exact bare_of_denotes (.inl rfl) denotes

/-- **Exactly the addresses are accepted.** Behind all marks that can be taken from the front there
is a plus sign or none and then a digit or more, of either case, whose value has sixteen bits; that
value is read. In particular a written address is read back behind any number of marks. Of the texts
that are refused, the marks alone have nothing to read; in any other there is a character that is no
digit, or a digit that carries the value past sixteen bits, and the first of these is reported. -/
theorem readAddress_language (text : String) :
    (∀ value, readAddress text = .ok value ↔
      ∃ count sign digits, text.toList = marks count ++ (sign ++ digits) ∧
        ¬ mark <+: sign ++ digits ∧ (sign = [] ∨ sign = ['+']) ∧ digits ≠ [] ∧
        Numeral.Denotes 16 digits value ∧ value ≤ 0xffff) ∧
    (∀ count width (address : UInt16),
      readAddress (String.ofList (marks count) ++ Numeral.hex width address.toNat) =
          .ok address.toNat ∧
        readAddress (String.ofList (marks count) ++ Numeral.upperHex address.toNat) =
          .ok address.toNat) ∧
    (readAddress text = .error .empty ↔ ∃ count, text.toList = marks count) ∧
    (∀ reason, readAddress text = .error reason → (∀ count, text.toList ≠ marks count) →
      reason = .invalidDigit ∨ reason = .tooLarge) ∧
    (∀ answer, readAddress text = answer ↔
      ∃ count rest, text.toList = marks count ++ rest ∧ ¬ mark <+: rest ∧
        Numeral.Reads 16 0xffff rest answer) := by
  refine ⟨fun value => readAddress_eq_ok_iff, fun count width address => ?_,
    readAddress_eq_empty_iff, fun reason refused marked => ?_, fun answer => readAddress_eq_iff⟩
  · have within : address.toNat ≤ 0xffff := by
      have bound := address.toNat_lt
      omega
    exact ⟨readAddress_marks_append count (Numeral.hex_ne_nil width _)
        (Numeral.denotes_hex width _) within,
      readAddress_marks_append count (Numeral.upperHex_ne_nil _)
        (Numeral.denotes_upperHex _) within⟩
  · cases reason with
    | empty =>
      obtain ⟨count, only⟩ := readAddress_eq_empty_iff.mp refused
      exact absurd only (marked count)
    | invalidDigit => exact .inl rfl
    | tooLarge => exact .inr rfl

/-- Marks stand behind each other, but not behind a sign. -/
theorem readAddress_language_crossed :
    (∃ count sign digits, "0x0x+00fF".toList = marks count ++ (sign ++ digits) ∧
      ¬ mark <+: sign ++ digits ∧ (sign = [] ∨ sign = ['+']) ∧ digits ≠ [] ∧
      Numeral.Denotes 16 digits 255 ∧ 255 ≤ 0xffff) ∧
    ∃ reason, readAddress "+0x2" = .error reason ∧ (∀ count, "+0x2".toList ≠ marks count) ∧
      (reason = .invalidDigit ∨ reason = .tooLarge) := by
  have refused : readAddress "+0x2" = .error .invalidDigit := by decide
  obtain ⟨-, -, empty, others, -⟩ := readAddress_language "+0x2"
  have marked (count : Nat) : "+0x2".toList ≠ marks count := by
    intro only
    have nothing := empty.mpr ⟨count, only⟩
    rw [refused] at nothing
    cases nothing
  exact ⟨((readAddress_language "0x0x+00fF").1 255).mp (by decide),
    _, refused, marked, others _ refused marked⟩

end ChipEight.CommandLine
