/-
**The grammar of numerals.**

A numeral is a plus sign or none, and digits of a base in either case. The reader accepts the
numerals with a value up to its bound; on any other text the first character that does not fit
decides what is reported:

* `IsDigit`, `Denotes`: the digits of a base, and the value of digits by their places;
* `Reads`: what is read from a text, told by what the text is made of;
* `digit_eq_some_iff`: the characters that the reader takes for digits;
* `readDigits_append`, `exists_stop`: digits within the bound are read as their value, and every
  text has a place where that ends;
* `read_eq_iff`: the reader follows the grammar.

All of this is for bases up to sixteen, where the letters for the digits are those of the writer.
-/

import Mathlib.Data.List.Forall2
import Mathlib.Data.Nat.Digits.Defs
import ChipEight.Proofs.Numeral

namespace ChipEight.Numeral

/-! ### Grammar -/

/-- **Whether a character is the digit of a base**, in either case. -/
def IsDigit (base : Nat) (character : Char) (digit : Nat) : Prop :=
  digit < base ∧ (character = Nat.digitChar digit ∨ character = (Nat.digitChar digit).toUpper)

/-- **Whether a text has digits only, with the given value.** The last digit counts once, and each
one counts the base times as much as the next. -/
def Denotes (base : Nat) (text : List Char) (value : Nat) : Prop :=
  ∃ digits, List.Forall₂ (IsDigit base) text digits ∧ value = Nat.ofDigits base digits.reverse

/-- **What ends the digits behind a value**, and what is reported there. -/
inductive Stops (base bound value : Nat) : List Char → Except Malformed Nat → Prop
  /-- The text is at its end. -/
  | ended : Stops base bound value [] (.ok value)
  /-- There is a character that is no digit. -/
  | wrong {character : Char} (behind : List Char)
      (noDigit : ∀ digit, ¬ IsDigit base character digit) :
      Stops base bound value (character :: behind) (.error .invalidDigit)
  /-- There is a digit that carries the value past the bound. -/
  | past {character : Char} {digit : Nat} (behind : List Char)
      (isDigit : IsDigit base character digit) (exceeds : bound < value * base + digit) :
      Stops base bound value (character :: behind) (.error .tooLarge)

/-- Whether a text is the sign in front of another: the plus sign, or nothing if the other does not
begin with one. -/
def IsSignOf (sign body : List Char) : Prop :=
  sign = ['+'] ∨ sign = [] ∧ body.head? ≠ some '+'

/-- **What is read from a text**, by what it is made of. -/
inductive Reads (base bound : Nat) : List Char → Except Malformed Nat → Prop
  /-- There is nothing to read. -/
  | nothing : Reads base bound [] (.error .empty)
  /-- There is nothing behind the sign. -/
  | bareSign : Reads base bound ['+'] (.error .invalidDigit)
  /-- Digits stand behind the sign, as many as the bound admits, and what ends them decides. -/
  | body {sign front behind : List Char} {value : Nat} {answer : Except Malformed Nat}
      (signed : IsSignOf sign (front ++ behind)) (nonempty : front ++ behind ≠ [])
      (denotes : Denotes base front value) (within : value ≤ bound)
      (stops : Stops base bound value behind answer) :
      Reads base bound (sign ++ (front ++ behind)) answer

/-- Digits up to the end are read as their value. -/
theorem Reads.numeral {base bound value : Nat} {sign digits : List Char}
    (signed : IsSignOf sign digits) (nonempty : digits ≠ []) (denotes : Denotes base digits value)
    (within : value ≤ bound) : Reads base bound (sign ++ digits) (.ok value) := by
  rw [← List.append_nil digits] at signed nonempty ⊢
  exact .body signed nonempty denotes within .ended

/-! ### Single digits -/

theorem digitValue_eq_some_iff {character : Char} {digit : Nat} (small : digit < 16) :
    digitValue? character = some digit ↔
      character = Nat.digitChar digit ∨ character = (Nat.digitChar digit).toUpper := by
  constructor
  · intro value
    have code {first : Nat} (place : character.toNat = digit + first) :
        character = Char.ofNat (digit + first) := by rw [← place, Char.ofNat_toNat]
    unfold digitValue? at value
    split_ifs at value with decimal lower upper
    · obtain ⟨low, high⟩ : 48 ≤ character.toNat ∧ character.toNat ≤ 57 := decimal
      have place : character.toNat - 48 = digit := Option.some.inj value
      have written : ∀ digit : Fin 10, Char.ofNat (digit.val + 48) = Nat.digitChar digit.val := by
        decide
      exact .inl ((code (by omega)).trans (written ⟨digit, by omega⟩))
    · obtain ⟨low, high⟩ : 97 ≤ character.toNat ∧ character.toNat ≤ 122 := lower
      have place : character.toNat - 97 + 10 = digit := Option.some.inj value
      have written : ∀ digit : Fin 16, 10 ≤ digit.val →
          Char.ofNat (digit.val + 87) = Nat.digitChar digit.val := by decide
      exact .inl ((code (by omega)).trans (written ⟨digit, small⟩ (show 10 ≤ digit by omega)))
    · obtain ⟨low, high⟩ : 65 ≤ character.toNat ∧ character.toNat ≤ 90 := upper
      have place : character.toNat - 65 + 10 = digit := Option.some.inj value
      have written : ∀ digit : Fin 16, 10 ≤ digit.val →
          Char.ofNat (digit.val + 55) = (Nat.digitChar digit.val).toUpper := by decide
      exact .inr ((code (by omega)).trans (written ⟨digit, small⟩ (show 10 ≤ digit by omega)))
  · have all : ∀ digit : Fin 16, digitValue? (Nat.digitChar digit) = some digit.val ∧
        digitValue? (Nat.digitChar digit).toUpper = some digit.val := by decide
    rintro (rfl | rfl)
    · exact (all ⟨digit, small⟩).1
    · exact (all ⟨digit, small⟩).2

section Base

variable {base bound : Nat} (small : base ≤ 16)

include small

/-- **The reader takes the digits of its base for digits**, in either case. -/
theorem digit_eq_some_iff {character : Char} {digit : Nat} :
    digit? base character = some digit ↔ IsDigit base character digit := by
  rw [digit?, Option.filter_eq_some_iff, decide_eq_true_iff, IsDigit, and_comm]
  exact and_congr_right fun inBase => digitValue_eq_some_iff (by omega)

theorem digit_eq_none_iff {character : Char} :
    digit? base character = none ↔ ∀ digit, ¬ IsDigit base character digit := by
  simp only [Option.eq_none_iff_forall_ne_some, ne_eq, digit_eq_some_iff small]

/-- A plus sign is no digit. -/
theorem not_isDigit_plus (digit : Nat) : ¬ IsDigit base '+' digit := by
  rw [← digit_eq_some_iff small]
  exact fun reads => absurd (Option.filter_eq_some_iff.mp reads).1 (by simp [digitValue?])

/-- Digits do not begin with a plus sign. -/
theorem head_ne_plus {text : List Char} {value : Nat} (denotes : Denotes base text value) :
    text.head? ≠ some '+' := by
  obtain ⟨digits, each, -⟩ := denotes
  cases each with
  | nil => exact Option.some_ne_none _ ∘ Eq.symm
  | cons first _ =>
    intro plus
    rw [Option.some.inj plus] at first
    exact not_isDigit_plus small _ first

end Base

/-! ### Digits -/

/-- What the reader makes of a value behind which it reads digits. -/
def extend (base value : Nat) (digits : List Nat) : Nat :=
  digits.foldl (fun value digit => value * base + digit) value

theorem extend_cons (base value digit : Nat) (digits : List Nat) :
    extend base value (digit :: digits) = extend base (value * base + digit) digits :=
  rfl

/-- Digits that are read from the start give their value by places. -/
theorem extend_zero (base : Nat) (digits : List Nat) :
    extend base 0 digits = Nat.ofDigits base digits.reverse := by
  rw [Nat.ofDigits_eq_foldr, List.foldr_reverse, extend]
  congr 1
  funext value digit
  rw [Nat.mul_comm, Nat.add_comm]
  rfl

theorem le_extend {base : Nat} (positive : 0 < base) (value : Nat) (digits : List Nat) :
    value ≤ extend base value digits := by
  induction digits generalizing value with
  | nil => exact Nat.le_refl value
  | cons digit digits ih =>
    have shifted : value ≤ value * base := Nat.le_mul_of_pos_right value positive
    exact (shifted.trans (Nat.le_add_right _ digit)).trans (ih _)

section Base

variable {base bound : Nat} (small : base ≤ 16)

include small

theorem readDigits_of_stops {value : Nat} {behind : List Char} {answer : Except Malformed Nat}
    (stops : Stops base bound value behind answer) :
    readDigits base bound value behind = answer := by
  cases stops with
  | ended => rfl
  | wrong behind noDigit => rw [readDigits, (digit_eq_none_iff small).mpr noDigit]
  | past behind isDigit exceeds =>
    rw [readDigits, (digit_eq_some_iff small).mpr isDigit]
    exact if_neg (Nat.not_le.mpr exceeds)

/-- **Digits within the bound are read as their value**, whatever follows them. -/
theorem readDigits_append (positive : 0 < base) {front behind : List Char} {digits : List Nat}
    {value : Nat} (reads : List.Forall₂ (IsDigit base) front digits)
    (within : extend base value digits ≤ bound) :
    readDigits base bound value (front ++ behind) =
      readDigits base bound (extend base value digits) behind := by
  induction reads generalizing value with
  | nil => rfl
  | cons isDigit _ ih =>
    rw [extend_cons] at within
    rw [List.cons_append, readDigits_cons _ ((digit_eq_some_iff small).mpr isDigit)
      ((le_extend positive _ _).trans within), ih within, extend_cons]

/-- **Every text has a place where the reader stops**, and behind the digits up to there it reports
what it reports for the whole text. -/
theorem exists_stop {value : Nat} (within : value ≤ bound) (text : List Char) :
    ∃ front digits behind, text = front ++ behind ∧ List.Forall₂ (IsDigit base) front digits ∧
      extend base value digits ≤ bound ∧
      Stops base bound (extend base value digits) behind (readDigits base bound value text) := by
  induction text generalizing value with
  | nil => exact ⟨[], [], [], rfl, .nil, within, .ended⟩
  | cons character rest ih =>
    cases taken : digit? base character with
    | none =>
      rw [readDigits, taken]
      exact ⟨[], [], _, rfl, .nil, within, .wrong rest ((digit_eq_none_iff small).mp taken)⟩
    | some digit =>
      have isDigit := (digit_eq_some_iff small).mp taken
      rcases Nat.lt_or_ge bound (value * base + digit) with exceeds | fits
      · rw [readDigits_of_stops small (.past rest isDigit exceeds)]
        exact ⟨[], [], _, rfl, .nil, within, .past rest isDigit exceeds⟩
      · obtain ⟨front, digits, behind, rfl, reads, bounded, stops⟩ := ih fits
        rw [readDigits_cons _ taken fits]
        exact ⟨character :: front, digit :: digits, behind, rfl, .cons isDigit reads, bounded,
          stops⟩

/-- **What is read from digits**: where the reader stops decides. -/
theorem readDigits_eq_iff (positive : 0 < base) {text : List Char}
    {answer : Except Malformed Nat} :
    readDigits base bound 0 text = answer ↔
      ∃ front value behind, text = front ++ behind ∧ Denotes base front value ∧ value ≤ bound ∧
        Stops base bound value behind answer := by
  constructor
  · rintro rfl
    obtain ⟨front, digits, behind, cut, reads, within, stops⟩ :=
      exists_stop small (Nat.zero_le bound) text
    exact ⟨front, _, behind, cut, ⟨digits, reads, extend_zero base digits⟩, within, stops⟩
  · rintro ⟨front, value, behind, rfl, ⟨digits, reads, places⟩, within, stops⟩
    rw [← extend_zero] at places
    subst places
    rw [readDigits_append small positive reads within, readDigits_of_stops small stops]

/-- Digits that are read to their end denote what is read. -/
theorem denotes_of_readDigits (positive : 0 < base) {text : List Char} {value : Nat}
    (reads : readDigits base bound 0 text = .ok value) : Denotes base text value := by
  obtain ⟨front, reached, behind, rfl, denotes, -, stops⟩ :=
    (readDigits_eq_iff small positive).mp reads
  cases stops with
  | ended => rwa [List.append_nil]

end Base

/-- The written forms of a number denote it. -/
theorem denotes_hex (width value : Nat) : Denotes 16 (hex width value).toList value :=
  denotes_of_readDigits (Nat.le_refl 16) (by decide) (readDigits_hex width (Nat.le_refl value))

theorem denotes_upperHex (value : Nat) : Denotes 16 (upperHex value).toList value :=
  denotes_of_readDigits (Nat.le_refl 16) (by decide) (readDigits_upperHex (Nat.le_refl value))

/-! ### Numerals -/

/-- Behind the sign the reader goes on to the digits. -/
theorem read_body {base bound : Nat} {sign body : List Char} (signed : IsSignOf sign body)
    (nonempty : body ≠ []) : read base bound (sign ++ body) = readDigits base bound 0 body := by
  obtain ⟨first, rest, rfl⟩ := List.exists_cons_of_ne_nil nonempty
  rcases signed with rfl | ⟨rfl, plain⟩
  · rfl
  · have other : first ≠ '+' := fun same => plain (congrArg some same)
    rw [List.nil_append]
    unfold read
    split
    next equal => exact absurd equal nonempty
    next equal => exact absurd (List.cons.inj equal).1 other
    next equal => exact absurd (List.cons.inj equal).1 other
    next => rfl

/-- A text is empty, a sign alone, or something behind its sign. -/
theorem exists_sign (text : List Char) :
    text = [] ∨ text = ['+'] ∨
      ∃ sign body, text = sign ++ body ∧ IsSignOf sign body ∧ body ≠ [] := by
  obtain _ | ⟨first, rest⟩ := text
  · exact .inl rfl
  · by_cases plus : first = '+'
    · subst plus
      by_cases alone : rest = []
      · exact .inr (.inl (congrArg _ alone))
      · exact .inr (.inr ⟨['+'], rest, rfl, .inl rfl, alone⟩)
    · refine .inr (.inr ⟨[], _, rfl, .inr ⟨rfl, ?_⟩, List.cons_ne_nil first rest⟩)
      exact fun same => plus (Option.some.inj same)

section Base

variable {base bound : Nat} (small : base ≤ 16) (positive : 0 < base) {text : List Char}

include small positive

/-- **The reader follows the grammar.** -/
theorem read_eq_iff {answer : Except Malformed Nat} :
    read base bound text = answer ↔ Reads base bound text answer := by
  constructor
  · rintro rfl
    rcases exists_sign text with rfl | rfl | ⟨sign, body, rfl, signed, nonempty⟩
    · exact .nothing
    · exact .bareSign
    · rw [read_body signed nonempty]
      obtain ⟨front, value, behind, rfl, denotes, within, stops⟩ :=
        (readDigits_eq_iff small positive).mp (Eq.refl (readDigits base bound 0 body))
      exact .body signed nonempty denotes within stops
  · intro reads
    cases reads with
    | nothing => rfl
    | bareSign => rfl
    | body signed nonempty denotes within stops =>
      rw [read_body signed nonempty]
      exact (readDigits_eq_iff small positive).mpr ⟨_, _, _, rfl, denotes, within, stops⟩

/-- **The texts that are accepted** are a sign or none and digits, of a value within the bound. -/
theorem read_eq_ok_iff {value : Nat} :
    read base bound text = .ok value ↔
      ∃ sign digits, text = sign ++ digits ∧ (sign = [] ∨ sign = ['+']) ∧ digits ≠ [] ∧
        Denotes base digits value ∧ value ≤ bound := by
  rw [read_eq_iff small positive]
  constructor
  · intro reads
    cases reads with
    | body signed nonempty denotes within stops =>
      cases stops with
      | ended =>
        rw [List.append_nil] at signed nonempty ⊢
        exact ⟨_, _, rfl, signed.symm.imp_left And.left, nonempty, denotes, within⟩
  · rintro ⟨sign, digits, rfl, signed, nonempty, denotes, within⟩
    have body : IsSignOf sign digits :=
      signed.symm.imp_right fun none => ⟨none, head_ne_plus small denotes⟩
    exact .numeral body nonempty denotes within

/-- Only the empty text has nothing to read. -/
theorem read_eq_empty_iff : read base bound text = .error .empty ↔ text = [] := by
  rw [read_eq_iff small positive]
  constructor
  · intro reads
    cases reads with
    | nothing => rfl
    | body _ _ _ _ stops => cases stops
  · rintro rfl
    exact .nothing

end Base

end ChipEight.Numeral
