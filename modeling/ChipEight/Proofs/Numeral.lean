/-
**Hexadecimal numerals and their value.**

A written numeral is read as the number it was written for, whatever its width and the case of its
digits:

* `readDigits_hex`, `readDigits_upperHex`: the reader gives the number back, if the bound admits it;
* `exists_digit_of_mem_hex`, `exists_digit_of_mem_upperHex`: the characters of a numeral are digits;
* `not_mem_hex`: characters that are no digits stand in no numeral;
* `hex_ne_nil`, `upperHex_ne_nil`: a numeral is not empty;
* `length_hex`: its length, by its width, if the number is small enough for it;
* `bytesOf_hexBytes`: a row of bytes is read back from its digits.
-/

import Mathlib.Algebra.Group.Nat.Defs
import Mathlib.Data.List.Basic
import Mathlib.Tactic.Common
import ChipEight.Text.Numeral

namespace ChipEight.Numeral

/-! ### Single digits -/

theorem digit_digitChar {digit : Nat} (small : digit < 16) :
    digit? 16 (Nat.digitChar digit) = some digit := by
  have all : ∀ digit : Fin 16, digit? 16 (Nat.digitChar digit) = some digit.val := by decide
  exact all ⟨digit, small⟩

theorem digit_toUpper_digitChar {digit : Nat} (small : digit < 16) :
    digit? 16 (Nat.digitChar digit).toUpper = some digit := by
  have all : ∀ digit : Fin 16, digit? 16 (Nat.digitChar digit).toUpper = some digit.val := by decide
  exact all ⟨digit, small⟩

/-- One digit is read into a value that the bound admits. -/
theorem readDigits_cons {base bound value digit : Nat} {character : Char} (rest : List Char)
    (reads : digit? base character = some digit) (within : value * base + digit ≤ bound) :
    readDigits base bound value (character :: rest) =
      readDigits base bound (value * base + digit) rest := by
  rw [readDigits, reads]
  exact if_pos within

/-! ### Numerals -/

section Cases

variable {change : Char → Char}
  (reads : ∀ digit < 16, digit? 16 (change (Nat.digitChar digit)) = some digit)

include reads

/-- The digits of a number are read as the number, in either case. -/
theorem readDigits_hexDigits_append {bound : Nat} (value : Nat) (within : value ≤ bound)
    (rest : List Char) :
    readDigits 16 bound 0 ((hexDigits value).map change ++ rest) =
      readDigits 16 bound value rest := by
  induction value using Nat.strongRecOn generalizing rest with
  | ind value ih =>
    rw [hexDigits, Nat.toDigits_eq_if (by decide)]
    split
    · rename_i small
      show readDigits 16 bound 0 (change (Nat.digitChar value) :: rest) = _
      rw [readDigits_cons rest (reads value small) (by omega), Nat.zero_mul, Nat.zero_add]
    · rename_i large
      -- the last digit is read behind those of the sixteenth part
      rw [List.map_append, List.append_assoc]
      show readDigits 16 bound 0 ((hexDigits (value / 16)).map change ++
        change (Nat.digitChar (value % 16)) :: rest) = _
      rw [ih (value / 16) (by omega) (by omega),
        readDigits_cons rest (reads _ (Nat.mod_lt _ (by decide))) (by omega)]
      congr 1
      omega

end Cases

theorem readDigits_zeros (bound count : Nat) (rest : List Char) :
    readDigits 16 bound 0 (List.replicate count '0' ++ rest) = readDigits 16 bound 0 rest := by
  induction count with
  | zero => rfl
  | succ count ih =>
    rw [List.replicate_succ, List.cons_append,
      readDigits_cons _ (show digit? 16 '0' = some 0 by decide) (by omega)]
    exact ih

/-- **A numeral of any width is read as its number.** -/
theorem readDigits_hex {bound value : Nat} (width : Nat) (within : value ≤ bound) :
    readDigits 16 bound 0 (hex width value).toList = .ok value := by
  have reads : ∀ digit < 16, digit? 16 (id (Nat.digitChar digit)) = some digit :=
    fun _ => digit_digitChar
  have digits := readDigits_hexDigits_append reads value within []
  rw [List.map_id, List.append_nil] at digits
  rw [hex, String.toList_ofList, List.leftpad, readDigits_zeros, digits]
  rfl

theorem readDigits_upperHex {bound value : Nat} (within : value ≤ bound) :
    readDigits 16 bound 0 (upperHex value).toList = .ok value := by
  have digits := readDigits_hexDigits_append (fun _ => digit_toUpper_digitChar) value within []
  rw [List.append_nil] at digits
  rw [upperHex, String.toList_ofList, digits]
  rfl

/-! ### Characters and length -/

theorem exists_digit_of_mem_hexDigits {value : Nat} {character : Char}
    (member : character ∈ hexDigits value) : ∃ digit < 16, character = Nat.digitChar digit := by
  induction value using Nat.strongRecOn with
  | ind value ih =>
    rw [hexDigits, Nat.toDigits_eq_if (by decide)] at member
    split at member
    · rename_i small
      exact ⟨value, small, List.mem_singleton.mp member⟩
    · rcases List.mem_append.mp member with earlier | last
      · exact ih (value / 16) (by omega) earlier
      · exact ⟨value % 16, Nat.mod_lt _ (by decide), List.mem_singleton.mp last⟩

theorem exists_digit_of_mem_hex {width value : Nat} {character : Char}
    (member : character ∈ (hex width value).toList) :
    ∃ digit < 16, character = Nat.digitChar digit := by
  rw [hex, String.toList_ofList, List.leftpad] at member
  rcases List.mem_append.mp member with zero | digit
  · exact ⟨0, by decide, List.eq_of_mem_replicate zero⟩
  · exact exists_digit_of_mem_hexDigits digit

/-- A character that is no digit stands in no numeral. -/
theorem not_mem_hex {character : Char} (noDigit : ∀ digit < 16, Nat.digitChar digit ≠ character)
    (width value : Nat) : character ∉ (hex width value).toList := by
  intro member
  obtain ⟨digit, small, same⟩ := exists_digit_of_mem_hex member
  exact noDigit digit small same.symm

theorem exists_digit_of_mem_upperHex {value : Nat} {character : Char}
    (member : character ∈ (upperHex value).toList) :
    ∃ digit < 16, character = (Nat.digitChar digit).toUpper := by
  rw [upperHex, String.toList_ofList] at member
  obtain ⟨lower, isDigit, rfl⟩ := List.mem_map.mp member
  obtain ⟨digit, small, rfl⟩ := exists_digit_of_mem_hexDigits isDigit
  exact ⟨digit, small, rfl⟩

/-- A number that has room in a width is written in that width. -/
theorem length_hex {width value : Nat} (positive : 0 < width) (small : value < 16 ^ width) :
    (hex width value).toList.length = width := by
  have fits : (hexDigits value).length ≤ width :=
    (Nat.length_toDigits_le_iff (by decide) positive).mpr small
  rw [hex, String.toList_ofList, List.leftpad, List.length_append, List.length_replicate]
  omega

/-- A numeral is at least as long as its width. -/
theorem le_length_hex (width value : Nat) : width ≤ (hex width value).toList.length := by
  rw [hex, String.toList_ofList, List.leftpad, List.length_append, List.length_replicate]
  omega

theorem hex_ne_nil (width value : Nat) : (hex width value).toList ≠ [] := by
  rw [hex, String.toList_ofList, List.leftpad]
  exact List.append_ne_nil_of_right_ne_nil _ Nat.toDigits_ne_nil

theorem upperHex_ne_nil (value : Nat) : (upperHex value).toList ≠ [] := by
  rw [upperHex, String.toList_ofList]
  exact List.map_eq_nil_iff.not.mpr Nat.toDigits_ne_nil

/-! ### Rows of bytes -/

/-- The bytes with the given digits, two for each. -/
def bytesOf? : List Char → Option (List UInt8)
  | [] => some []
  | high :: low :: rest =>
    match readDigits 16 0xff 0 [high, low], bytesOf? rest with
    | .ok value, some bytes => some (UInt8.ofNat value :: bytes)
    | _, _ => none
  | _ => none

theorem toList_hexBytes (bytes : List UInt8) :
    (hexBytes bytes).toList = bytes.flatMap fun byte => (hex 2 byte.toNat).toList := by
  rw [hexBytes, String.toList_join, List.flatMap_map]

/-- **A row of bytes is read back from its digits.** -/
theorem bytesOf_hexBytes (bytes : List UInt8) : bytesOf? (hexBytes bytes).toList = some bytes := by
  rw [toList_hexBytes]
  induction bytes with
  | nil => rfl
  | cons byte rest ih =>
    have bound := byte.toNat_lt
    obtain ⟨high, low, two⟩ := List.length_eq_two.mp
      (length_hex (show 0 < 2 by decide) (show byte.toNat < 16 ^ 2 by omega))
    have value : readDigits 16 0xff 0 (hex 2 byte.toNat).toList = .ok byte.toNat :=
      readDigits_hex 2 (by omega)
    rw [two] at value
    rw [List.flatMap_cons, two, List.cons_append, List.singleton_append, bytesOf?, value, ih]
    exact congrArg (fun first => some (first :: rest)) UInt8.ofNat_toNat

end ChipEight.Numeral
