/-
**What a reader takes from a printed text.**

Line breaks end lines, and escapes are not seen:

* `Text.lines`: the lines of a text, with `lines_append_break` and `lines_of_solid` to read them off;
  `lines_join` is the case of many;
* `Text.visible`: a text without its escapes, with `visible_append` for a text that has none;
* `Text.Printable`: the texts without breaks, escapes or other marks that control a terminal, such as
  numerals (`Numeral.printable_hex`);
* `Style.IsSilent`: the styles that add nothing but escapes, so that a styled text is seen as the
  text (`visible_apply`).
-/

import ChipEight.Proofs.Numeral
import ChipEight.Text.Layout

namespace ChipEight

namespace Text

/-! ### Lines -/

/-- The lines of a text. What stands behind the last line break is a line of its own, if there is
something. -/
def lines : List Char → List (List Char)
  | [] => []
  | character :: rest =>
    if character = '\n' then [] :: lines rest
    else
      match lines rest with
      | [] => [[character]]
      | line :: below => (character :: line) :: below

/-- A line ends with its line break. -/
theorem lines_append_break {line : List Char} (solid : '\n' ∉ line) (rest : List Char) :
    lines (line ++ '\n' :: rest) = line :: lines rest := by
  induction line with
  | nil => exact if_pos rfl
  | cons first others ih =>
    obtain ⟨noBreak, othersSolid⟩ := List.ne_and_not_mem_of_not_mem_cons solid
    rw [List.cons_append, lines, if_neg (Ne.symm noBreak), ih othersSolid]

/-- A text without a line break is a single line. -/
theorem lines_of_solid {line : List Char} (solid : '\n' ∉ line) (nonempty : line ≠ []) :
    lines line = [line] := by
  induction line with
  | nil => exact absurd rfl nonempty
  | cons first others ih =>
    obtain ⟨noBreak, othersSolid⟩ := List.ne_and_not_mem_of_not_mem_cons solid
    rw [lines, if_neg (Ne.symm noBreak)]
    by_cases last : others = []
    · rw [last]
      rfl
    · rw [ih othersSolid last]

/-- **Lines with a line break behind each are read as these lines.** -/
theorem lines_join {texts : List (List Char)} (solid : ∀ line ∈ texts, '\n' ∉ line) :
    lines (texts.flatMap (· ++ ['\n'])) = texts := by
  induction texts with
  | nil => rfl
  | cons line below ih =>
    rw [List.flatMap_cons, List.append_assoc, List.singleton_append,
      lines_append_break (solid line List.mem_cons_self),
      ih fun other member => solid other (List.mem_cons_of_mem _ member)]

/-! ### Escapes -/

/-- Leaves out escapes. An escape begins with the escape character and ends with the first letter;
`inside` tells whether one has begun. -/
def visibleFrom (inside : Bool) : List Char → List Char
  | [] => []
  | character :: rest =>
    if inside then visibleFrom (!character.isAlpha) rest
    else if character = '\x1b' then visibleFrom true rest
    else character :: visibleFrom false rest

/-- What is seen of a text. -/
def visible (text : List Char) : List Char :=
  visibleFrom false text

/-- A text without the escape character is seen as it is, whatever follows. -/
theorem visible_append {text : List Char} (plain : '\x1b' ∉ text) (rest : List Char) :
    visible (text ++ rest) = text ++ visible rest := by
  induction text with
  | nil => rfl
  | cons first others ih =>
    obtain ⟨noEscape, othersPlain⟩ := List.ne_and_not_mem_of_not_mem_cons plain
    have here : visible (first :: (others ++ rest)) = first :: visible (others ++ rest) :=
      if_neg (Ne.symm noEscape)
    rw [List.cons_append, here, ih othersPlain, List.cons_append]

/-! ### Printable texts -/

/-- **Whether a text has visible characters and blanks only.** -/
def Printable (text : List Char) : Prop :=
  ∀ character ∈ text, ' ' ≤ character ∧ character ≤ '~'

instance (text : List Char) : Decidable (Printable text) :=
  List.decidableBAll _ text

namespace Printable

variable {first second : List Char}

theorem append (printable : Printable first) (behind : Printable second) :
    Printable (first ++ second) := by
  intro character member
  rcases List.mem_append.mp member with inFirst | inSecond
  · exact printable character inFirst
  · exact behind character inSecond

theorem replicate_blank (count : Nat) : Printable (List.replicate count ' ') := by
  intro character member
  rw [List.eq_of_mem_replicate member]
  decide

theorem intercalate {texts : List (List Char)} (between : Printable first)
    (printable : ∀ text ∈ texts, Printable text) : Printable (first.intercalate texts) := by
  induction texts with
  | nil => exact fun _ member => absurd member List.not_mem_nil
  | cons text others ih =>
    have here := printable text List.mem_cons_self
    cases others with
    | nil => rwa [List.intercalate_singleton]
    | cons next rest =>
      rw [List.intercalate_cons_cons]
      exact (here.append between).append
        (ih fun other member => printable other (List.mem_cons_of_mem _ member))

theorem solid (printable : Printable first) : '\n' ∉ first :=
  fun member => absurd (printable '\n' member) (by decide)

theorem plain (printable : Printable first) : '\x1b' ∉ first :=
  fun member => absurd (printable '\x1b' member) (by decide)

end Printable

end Text

/-! ### Numerals -/

theorem Numeral.printable_hex (width value : Nat) :
    Text.Printable (Numeral.hex width value).toList := by
  have digits : ∀ digit < 16, ' ' ≤ Nat.digitChar digit ∧ Nat.digitChar digit ≤ '~' := by decide
  intro character member
  obtain ⟨digit, small, rfl⟩ := Numeral.exists_digit_of_mem_hex member
  exact digits digit small

theorem Numeral.printable_upperHex (value : Nat) :
    Text.Printable (Numeral.upperHex value).toList := by
  have digits : ∀ digit < 16,
      ' ' ≤ (Nat.digitChar digit).toUpper ∧ (Nat.digitChar digit).toUpper ≤ '~' := by decide
  intro character member
  obtain ⟨digit, small, rfl⟩ := Numeral.exists_digit_of_mem_upperHex member
  exact digits digit small

/-! ### Styles -/

/-- **Whether a style adds nothing but escapes**, and no line break. -/
structure Style.IsSilent (style : Style) : Prop where
  opening (rest : List Char) : Text.visible (style.opening.toList ++ rest) = Text.visible rest
  closing (rest : List Char) : Text.visible (style.closing.toList ++ rest) = Text.visible rest
  openingSolid : '\n' ∉ style.opening.toList
  closingSolid : '\n' ∉ style.closing.toList

namespace Style

theorem isSilent_plain : plain.IsSilent :=
  ⟨fun _ => rfl, fun _ => rfl, by decide, by decide⟩

theorem isSilent_green : green.IsSilent :=
  ⟨fun _ => rfl, fun _ => rfl, by decide, by decide⟩

theorem isSilent_boldRed : boldRed.IsSilent :=
  ⟨fun _ => rfl, fun _ => rfl, by decide, by decide⟩

theorem isSilent_grey : grey.IsSilent :=
  ⟨fun _ => rfl, fun _ => rfl, by decide, by decide⟩

theorem isSilent_phosphor : phosphor.IsSilent :=
  ⟨fun _ => rfl, fun _ => rfl, by decide, by decide⟩

namespace IsSilent

variable {style : Style}

/-- **A styled text is seen as the text.** -/
theorem visible_apply (silent : style.IsSilent) {text : String} (plain : '\x1b' ∉ text.toList)
    (rest : List Char) :
    Text.visible ((style.apply text).toList ++ rest) = text.toList ++ Text.visible rest := by
  simp only [apply, String.toList_append, List.append_assoc]
  rw [silent.opening, Text.visible_append plain, silent.closing]

/-- A styled text has a line break only if the text has one. -/
theorem solid_apply (silent : style.IsSilent) {text : String} (solid : '\n' ∉ text.toList) :
    '\n' ∉ (style.apply text).toList := by
  simp only [apply, String.toList_append, List.mem_append, not_or]
  exact ⟨⟨silent.openingSolid, solid⟩, silent.closingSolid⟩

end IsSilent

end Style

end ChipEight
