/-
**Words by their fields.**

The fields of a word as arithmetic on its value, and the words that a machine singles out:

* `eq_clear_iff`, `eq_return_iff`: the two words of family zero that do something;
* `masked_eq_wait_iff`: the words that wait for a key are those that read `f00a` without their
  second digit.

A word that was put together from fields has these fields, cut down to their width:
`family_withAddress`, `family_withByte`, `family_withDigits` and the like. The other way round, every
word is put together from its own fields (`withAddress_of_fields`, `withByte_of_fields`,
`withDigits_of_fields`) and from its bytes (`ofBytes_bytes`).
-/

import ChipEight.Word

namespace ChipEight.Word

/-! ### Fields -/

/-- There are sixteen families. -/
theorem family_lt (word : Word) : word.family < 16 := by
  have bound := word.toNat_lt
  unfold family
  omega

theorem address_toNat (word : Word) : word.address.toNat = word.toNat % 4096 := by
  simp only [address, UInt16.toNat_ofNat']
  omega

theorem immediate_toNat (word : Word) : word.immediate.toNat = word.toNat % 256 := by
  simp only [immediate, UInt16.toNat_toUInt8]

theorem n_lt (word : Word) : word.n < 16 :=
  Nat.mod_lt _ (by decide)

/-! ### Words from fields -/

section Fields

variable {family : Nat} (isDigit : family < 16) (x y n : Nat)

include isDigit

theorem withAddress_toNat (target : UInt16) :
    (withAddress family target).toNat = family * 4096 + target.toNat % 4096 := by
  unfold withAddress
  rw [UInt16.toNat_ofNat']
  omega

theorem family_withAddress (target : UInt16) : (withAddress family target).family = family := by
  unfold Word.family
  rw [withAddress_toNat isDigit]
  omega

theorem address_withAddress (target : UInt16) :
    (withAddress family target).address = UInt16.ofNat (target.toNat % 4096) := by
  unfold Word.address
  rw [withAddress_toNat isDigit]
  congr 1
  omega

theorem withByte_toNat (byte : UInt8) :
    (withByte family x byte).toNat = family * 4096 + x % 16 * 256 + byte.toNat := by
  have small := byte.toNat_lt
  unfold withByte
  rw [UInt16.toNat_ofNat']
  omega

theorem family_withByte (byte : UInt8) : (withByte family x byte).family = family := by
  have small := byte.toNat_lt
  unfold Word.family
  rw [withByte_toNat isDigit]
  omega

theorem x_withByte (byte : UInt8) : (withByte family x byte).x = Fin.ofNat 16 x := by
  have small := byte.toNat_lt
  apply Fin.ext
  show (withByte family x byte).toNat / 256 % 16 = x % 16
  rw [withByte_toNat isDigit]
  omega

theorem immediate_withByte (byte : UInt8) : (withByte family x byte).immediate = byte := by
  have small := byte.toNat_lt
  rw [← UInt8.toNat_inj, immediate_toNat, withByte_toNat isDigit]
  omega

theorem withDigits_toNat :
    (withDigits family x y n).toNat = family * 4096 + x % 16 * 256 + y % 16 * 16 + n % 16 := by
  unfold withDigits
  rw [UInt16.toNat_ofNat']
  omega

theorem family_withDigits : (withDigits family x y n).family = family := by
  unfold Word.family
  rw [withDigits_toNat isDigit]
  omega

theorem x_withDigits : (withDigits family x y n).x = Fin.ofNat 16 x := by
  apply Fin.ext
  show (withDigits family x y n).toNat / 256 % 16 = x % 16
  rw [withDigits_toNat isDigit]
  omega

theorem y_withDigits : (withDigits family x y n).y = Fin.ofNat 16 y := by
  apply Fin.ext
  show (withDigits family x y n).toNat / 16 % 16 = y % 16
  rw [withDigits_toNat isDigit]
  omega

/-- The digits of two registers, put together and read again. -/
theorem registers_withDigits (first second : Fin 16) :
    (withDigits family first second n).x = first ∧
      (withDigits family first second n).y = second := by
  rw [x_withDigits isDigit, y_withDigits isDigit, Fin.ofNat_val_eq_self, Fin.ofNat_val_eq_self]
  exact ⟨rfl, rfl⟩

theorem n_withDigits : (withDigits family x y n).n = n % 16 := by
  unfold Word.n
  rw [withDigits_toNat isDigit]
  omega

end Fields

/-! ### Words from their own fields -/

section OwnFields

variable (word : Word)

theorem withAddress_of_fields {digit : Nat} (family : word.family = digit) :
    withAddress digit word.address = word := by
  subst family
  rw [← UInt16.toNat_inj, withAddress_toNat word.family_lt, address_toNat]
  unfold Word.family
  omega

theorem withByte_of_fields {digit : Nat} {byte : UInt8} (family : word.family = digit)
    (last : word.immediate.toNat = byte.toNat) : withByte digit word.x byte = word := by
  subst family
  rw [← UInt16.toNat_inj, withByte_toNat word.family_lt, ← last, immediate_toNat]
  show word.toNat / 4096 * 4096 + word.toNat / 256 % 16 % 16 * 256 + word.toNat % 256 = word.toNat
  omega

theorem withDigits_of_fields {digit last : Nat} (family : word.family = digit)
    (n : word.n = last) : withDigits digit word.x word.y last = word := by
  subst family n
  rw [← UInt16.toNat_inj, withDigits_toNat word.family_lt]
  show word.toNat / 4096 * 4096 + word.toNat / 256 % 16 % 16 * 256 + word.toNat / 16 % 16 % 16 * 16
    + word.toNat % 16 % 16 = word.toNat
  omega

theorem highByte_toNat : word.highByte.toNat = word.toNat / 256 := by
  have bound := word.toNat_lt
  unfold highByte
  rw [UInt8.toNat_ofNat']
  omega

theorem lowByte_toNat : word.lowByte.toNat = word.toNat % 256 :=
  word.immediate_toNat

theorem ofBytes_bytes : ofBytes word.highByte word.lowByte = word := by
  have bound := word.toNat_lt
  rw [← UInt16.toNat_inj, ofBytes, UInt16.toNat_ofNat', highByte_toNat, lowByte_toNat]
  omega

theorem bytes_ofBytes (high low : UInt8) :
    (ofBytes high low).highByte = high ∧ (ofBytes high low).lowByte = low := by
  have highBound := high.toNat_lt
  have lowBound := low.toNat_lt
  rw [← UInt8.toNat_inj, ← UInt8.toNat_inj, highByte_toNat, lowByte_toNat, ofBytes,
    UInt16.toNat_ofNat']
  omega

end OwnFields

/-! ### Single words -/

/-- The word that clears the screen. -/
theorem eq_clear_iff (word : Word) :
    word = 0x00e0 ↔ word.family = 0 ∧ word.address.toNat = 0x0e0 := by
  rw [← UInt16.toNat_inj, address_toNat]
  unfold family
  show word.toNat = 0x00e0 ↔ _
  omega

/-- The word that returns from a call. -/
theorem eq_return_iff (word : Word) :
    word = 0x00ee ↔ word.family = 0 ∧ word.address.toNat = 0x0ee := by
  rw [← UInt16.toNat_inj, address_toNat]
  unfold family
  show word.toNat = 0x00ee ↔ _
  omega

/-- **The words that wait for a key**, by a mask and by their fields. -/
theorem masked_eq_wait_iff (word : Word) :
    word &&& 0xf0ff = 0xf00a ↔ word.family = 15 ∧ word.immediate.toNat = 0x0a := by
  have bound := word.toNat_lt
  have first : (word.toNat &&& 0xf0ff) / 256 / 16 = word.toNat / 4096 := by
    rw [Nat.div_div_eq_div_mul]
    show (word.toNat &&& 0xf0ff) / 2 ^ 12 = _
    rw [Nat.and_div_two_pow]
    show word.toNat / 4096 &&& 2 ^ 4 - 1 = _
    rw [Nat.and_two_pow_sub_one_eq_mod]
    omega
  have second : (word.toNat &&& 0xf0ff) / 256 % 16 = 0 := by
    show (word.toNat &&& 0xf0ff) / 2 ^ 8 % 2 ^ 4 = _
    rw [Nat.and_div_two_pow, Nat.and_mod_two_pow]
    exact Nat.and_zero _
  have byte : (word.toNat &&& 0xf0ff) % 256 = word.toNat % 256 := by
    show (word.toNat &&& 0xf0ff) % 2 ^ 8 = _
    rw [Nat.and_mod_two_pow]
    show word.toNat % 2 ^ 8 &&& 2 ^ 8 - 1 = _
    rw [Nat.and_two_pow_sub_one_eq_mod]
    exact Nat.mod_mod _ _
  rw [← UInt16.toNat_inj, UInt16.toNat_and, immediate_toNat]
  unfold family
  show word.toNat &&& 0xf0ff = 0xf00a ↔ _
  omega

end ChipEight.Word
