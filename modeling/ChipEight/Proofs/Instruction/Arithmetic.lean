/-
**Arithmetic, whichever registers it works on.**

An operation of family eight reads both operands before it writes, writes its result and then, in
most cases, the flag. So its two registers may be the same, and either of them may be the flag:

* `Writes`: what remains of a word that writes byte registers only;
* `WritesFlagged`: a result in the first register and a flag behind it;
* `add_writes`, `subtract_writes` and their fellows: the equation that ties result and flag to the
  operands, which for a carry or a borrow is that of the exact sum or difference;
* `arithmetic_under_aliasing`: all operations, and a subtraction that undoes an addition.
-/

import Mathlib.Logic.Function.Basic
import ChipEight.Proofs.Instruction.Reading
import ChipEight.Proofs.Registers

namespace ChipEight.Machine

/-! ### Writing byte registers -/

/-- Whether a word succeeds and leaves the given values in the byte registers, and everything else
as it was. -/
structure Writes (machine : Machine) (word : Word) (bytes : Fin 16 → UInt8) : Prop where
  answer : (machine.execute word).answer = .ok ()
  bytes : (machine.execute word).machine.get = bytes
  others : (machine.execute word).machine = { machine.note word with
    registers := { machine.registers with v := (machine.execute word).machine.registers.v } }

/-- Whether a word writes a result into its first register, and then a bit into the flag. -/
structure WritesFlagged (machine : Machine) (word : Word) (result flag : UInt8) : Prop where
  writes : machine.Writes word
    (Function.update (Function.update machine.get word.x result) Registers.flag flag)
  bit : flag.toNat ≤ 1

variable {machine : Machine} {word : Word}

theorem writes_of_putting {value : Nat} {byte : UInt8}
    (performed : (machine.note word).perform word = (machine.note word).putting word.x value)
    (same : UInt8.ofNat value = byte) :
    machine.Writes word (Function.update machine.get word.x byte) := by
  have executed : machine.execute word =
      .done () ((machine.note word).mapRegisters (·.set word.x byte)) :=
    performed.trans (putting_eq _ _ same)
  constructor
  · rw [executed]
    rfl
  · rw [executed]
    funext register
    by_cases target : register = word.x
    · subst target
      rw [Function.update_self]
      exact Registers.get_set_self _ _ _
    · rw [Function.update_of_ne target]
      exact Registers.get_set_of_ne _ _ (Ne.symm target)
  · rw [executed]
    rfl

theorem writesFlagged_of_putting {value : Nat} {carry : Bool}
    (performed : (machine.note word).perform word =
      (machine.note word).puttingWithFlag word.x value carry) :
    machine.WritesFlagged word (UInt8.ofNat value) carry.toUInt8 := by
  have executed : machine.execute word = .done ()
      ((machine.note word).mapRegisters (·.setWithFlag word.x (UInt8.ofNat value) carry)) :=
    performed.trans (puttingWithFlag_eq _ _ rfl rfl)
  refine ⟨⟨?_, ?_, ?_⟩, ?_⟩
  · rw [executed]
    rfl
  · rw [executed]
    funext register
    by_cases isFlag : register = Registers.flag
    · subst isFlag
      rw [Function.update_self]
      exact Registers.get_set_self _ _ _
    · rw [Function.update_of_ne isFlag]
      refine (Registers.get_set_of_ne _ _ (Ne.symm isFlag)).trans ?_
      by_cases target : register = word.x
      · subst target
        rw [Function.update_self]
        exact Registers.get_set_self _ _ _
      · rw [Function.update_of_ne target]
        exact Registers.get_set_of_ne _ _ (Ne.symm target)
  · rw [executed]
    rfl
  · cases carry <;> decide

namespace WritesFlagged

variable {result flag : UInt8} (writes : machine.WritesFlagged word result flag)

include writes

theorem get_flag : (machine.execute word).machine.get Registers.flag = flag := by
  rw [writes.writes.bytes, Function.update_self]

theorem get_result (noFlag : word.x ≠ Registers.flag) :
    (machine.execute word).machine.get word.x = result := by
  rw [writes.writes.bytes, Function.update_of_ne noFlag, Function.update_self]

theorem get_other {register : Fin 16} (other : register ≠ word.x)
    (noFlag : register ≠ Registers.flag) :
    (machine.execute word).machine.get register = machine.get register := by
  rw [writes.writes.bytes, Function.update_of_ne noFlag, Function.update_of_ne other]

end WritesFlagged

/-! ### Results and flags -/

theorem toNat_flag (condition : Prop) [Decidable condition] :
    (decide condition).toUInt8.toNat = if condition then 1 else 0 := by
  by_cases holds : condition
  · rw [decide_eq_true holds, if_pos holds]
    rfl
  · rw [decide_eq_false holds, if_neg holds]
    rfl

theorem value_note (machine : Machine) (word : Word) (register : Fin 16) :
    (machine.note word).value register = (machine.get register).toNat :=
  value_eq _ _

section Equations

variable (machine : Machine) (family : word.family = 0x8)

include family

/-- The flag of an addition is the carry of the sum. -/
theorem add_writes (digit : word.n = 0x4) :
    ∃ result flag, machine.WritesFlagged word result flag ∧
      256 * flag.toNat + result.toNat =
        (machine.get word.x).toNat + (machine.get word.y).toNat := by
  have a := (machine.get word.x).toNat_lt
  have b := (machine.get word.y).toNat_lt
  refine ⟨_, _, writesFlagged_of_putting (perform_of_reads (.add family digit)), ?_⟩
  rw [toNat_flag, UInt8.toNat_ofNat', value_note, value_note]
  split <;> omega

/-- The flag of a subtraction is the borrow. -/
theorem subtract_writes (digit : word.n = 0x5) :
    ∃ result flag, machine.WritesFlagged word result flag ∧
      result.toNat + (machine.get word.y).toNat =
        (machine.get word.x).toNat + 256 * flag.toNat := by
  have a := (machine.get word.x).toNat_lt
  have b := (machine.get word.y).toNat_lt
  refine ⟨_, _, writesFlagged_of_putting (perform_of_reads (.subtract family digit)), ?_⟩
  rw [toNat_flag, UInt8.toNat_ofNat', value_note, value_note]
  split <;> omega

/-- The flag of a shift to the right is the bit that is lost. -/
theorem shiftRight_writes (digit : word.n = 0x6) :
    ∃ result flag, machine.WritesFlagged word result flag ∧
      2 * result.toNat + flag.toNat = (machine.get word.x).toNat := by
  have a := (machine.get word.x).toNat_lt
  refine ⟨_, _, writesFlagged_of_putting (perform_of_reads (.shiftRight family digit)), ?_⟩
  rw [Nat.testBit_zero, toNat_flag, UInt8.toNat_ofNat', value_note]
  split <;> omega

/-- The flag of the other subtraction is set if there is no borrow, and the operands differ. -/
theorem subtractFrom_writes (digit : word.n = 0x7) :
    ∃ result flag, machine.WritesFlagged word result flag ∧
      (result.toNat : Int) = ((machine.get word.y).toNat - (machine.get word.x).toNat : Int) % 256 ∧
      (flag = 1 ↔ machine.get word.x < machine.get word.y) := by
  have a := (machine.get word.x).toNat_lt
  have b := (machine.get word.y).toNat_lt
  refine ⟨_, _, writesFlagged_of_putting (perform_of_reads (.subtractFrom family digit)), ?_, ?_⟩
  · rw [UInt8.toNat_ofNat', value_note, value_note]
    omega
  · rw [← UInt8.toNat_inj, toNat_flag, value_note, value_note, UInt8.lt_iff_toNat_lt]
    split <;> simp [*]

/-- The flag of a shift to the left is the bit that is lost. -/
theorem shiftLeft_writes (digit : word.n = 0x8 ∨ word.n = 0xe) :
    ∃ result flag, machine.WritesFlagged word result flag ∧
      256 * flag.toNat + result.toNat = 2 * (machine.get word.x).toNat := by
  have a := (machine.get word.x).toNat_lt
  refine ⟨_, _, writesFlagged_of_putting (perform_of_reads (.shiftLeft family digit)), ?_⟩
  rw [Nat.testBit_eq_decide_div_mod_eq, toNat_flag, UInt8.toNat_ofNat', value_note]
  split <;> omega

/-- The operations without a flag. -/
theorem plain_writes :
    (word.n = 0x0 → machine.Writes word
      (Function.update machine.get word.x (machine.get word.y))) ∧
    (word.n = 0x1 → machine.Writes word
      (Function.update machine.get word.x (machine.get word.x ||| machine.get word.y))) ∧
    (word.n = 0x2 → machine.Writes word
      (Function.update machine.get word.x (machine.get word.x &&& machine.get word.y))) ∧
    (word.n = 0x3 → machine.Writes word
      (Function.update machine.get word.x (machine.get word.x ^^^ machine.get word.y))) := by
  refine ⟨fun digit => ?_, fun digit => ?_, fun digit => ?_, fun digit => ?_⟩
  · refine writes_of_putting (perform_of_reads (.copy family digit)) ?_
    rw [value_note, UInt8.ofNat_toNat]
  · refine writes_of_putting (perform_of_reads (.bitOr family digit)) ?_
    rw [value_note, value_note, UInt8.ofNat_or, UInt8.ofNat_toNat, UInt8.ofNat_toNat]
  · refine writes_of_putting (perform_of_reads (.bitAnd family digit)) ?_
    rw [value_note, value_note, UInt8.ofNat_and, UInt8.ofNat_toNat, UInt8.ofNat_toNat]
  · refine writes_of_putting (perform_of_reads (.bitXor family digit)) ?_
    rw [value_note, value_note, UInt8.ofNat_xor, UInt8.ofNat_toNat, UInt8.ofNat_toNat]

end Equations

/-- **A subtraction undoes an addition**, and its borrow is the carry. -/
theorem subtract_after_add (machine : Machine) {x y : Fin 16} (different : x ≠ y)
    (noFlag : x ≠ Registers.flag) (otherNoFlag : y ≠ Registers.flag) :
    let added := (machine.execute (Word.withDigits 0x8 x y 0x4)).machine
    let restored := (added.execute (Word.withDigits 0x8 x y 0x5)).machine
    restored.get x = machine.get x ∧ restored.get Registers.flag = added.get Registers.flag := by
  intro added restored
  obtain ⟨addX, addY⟩ := Word.registers_withDigits (show 0x8 < 16 by decide) 0x4 x y
  obtain ⟨subX, subY⟩ := Word.registers_withDigits (show 0x8 < 16 by decide) 0x5 x y
  obtain ⟨sum, carry, adds, isSum⟩ := add_writes machine
    (Word.family_withDigits (by decide) x y 0x4) (Word.n_withDigits (by decide) x y 0x4)
  obtain ⟨difference, borrow, subtracts, isDifference⟩ := subtract_writes added
    (Word.family_withDigits (by decide) x y 0x5) (Word.n_withDigits (by decide) x y 0x5)
  have sumHeld : added.get x = sum := by
    rw [← adds.get_result (by rwa [addX]), addX]
  have otherHeld : added.get y = machine.get y :=
    adds.get_other (by rw [addX]; exact different.symm) otherNoFlag
  have differenceHeld : restored.get x = difference := by
    rw [← subtracts.get_result (by rwa [subX]), subX]
  rw [addX, addY] at isSum
  rw [subX, subY, sumHeld, otherHeld] at isDifference
  -- the sum and the difference cancel up to the two bits, and these are apart by less than a byte
  have operand := (machine.get x).toNat_lt
  have small := difference.toNat_lt
  rw [differenceHeld, subtracts.get_flag, adds.get_flag, ← UInt8.toNat_inj, ← UInt8.toNat_inj]
  omega

/-- **Arithmetic, whichever registers it works on.** Both operands are those from before the word,
the result goes to the first register and the flag is written last, so that it stays if the result
went there, too. Carry, borrow and lost bit tie the result to the exact sum, difference or double.
A subtraction that follows an addition restores its first operand and finds the same flag. -/
theorem arithmetic_under_aliasing (machine : Machine) :
    (∀ word : Word, word.family = 0x8 →
      let a := machine.get word.x
      let b := machine.get word.y
      (word.n = 0x0 → machine.Writes word (Function.update machine.get word.x b)) ∧
      (word.n = 0x1 → machine.Writes word (Function.update machine.get word.x (a ||| b))) ∧
      (word.n = 0x2 → machine.Writes word (Function.update machine.get word.x (a &&& b))) ∧
      (word.n = 0x3 → machine.Writes word (Function.update machine.get word.x (a ^^^ b))) ∧
      (word.n = 0x4 → ∃ result flag, machine.WritesFlagged word result flag ∧
        256 * flag.toNat + result.toNat = a.toNat + b.toNat) ∧
      (word.n = 0x5 → ∃ result flag, machine.WritesFlagged word result flag ∧
        result.toNat + b.toNat = a.toNat + 256 * flag.toNat) ∧
      (word.n = 0x6 → ∃ result flag, machine.WritesFlagged word result flag ∧
        2 * result.toNat + flag.toNat = a.toNat) ∧
      (word.n = 0x7 → ∃ result flag, machine.WritesFlagged word result flag ∧
        (result.toNat : Int) = (b.toNat - a.toNat : Int) % 256 ∧ (flag = 1 ↔ a < b)) ∧
      (word.n = 0x8 ∨ word.n = 0xe → ∃ result flag, machine.WritesFlagged word result flag ∧
        256 * flag.toNat + result.toNat = 2 * a.toNat)) ∧
    ∀ x y : Fin 16, x ≠ y → x ≠ Registers.flag → y ≠ Registers.flag →
      let added := (machine.execute (Word.withDigits 0x8 x y 0x4)).machine
      let restored := (added.execute (Word.withDigits 0x8 x y 0x5)).machine
      restored.get x = machine.get x ∧
        restored.get Registers.flag = added.get Registers.flag := by
  refine ⟨fun word family => ?_, fun x y => subtract_after_add machine⟩
  obtain ⟨copy, bitOr, bitAnd, bitXor⟩ := plain_writes machine family
  exact ⟨copy, bitOr, bitAnd, bitXor, add_writes machine family, subtract_writes machine family,
    shiftRight_writes machine family, subtractFrom_writes machine family,
    shiftLeft_writes machine family⟩

/-- The flag added to itself, of which the carry stays; and a sum that runs over, undone. -/
theorem arithmetic_under_aliasing_carry :
    let machine : Machine := { new (.ofSeed 0) with
      registers := { Registers.blank with v := Vector.replicate 16 0x81 } }
    (machine.execute 0x8ff4).machine.get Registers.flag = 1 ∧
      ((machine.execute 0x8014).machine.execute 0x8015).machine.get 0 = 0x81 ∧
      ((machine.execute 0x8014).machine.execute 0x8015).machine.get Registers.flag =
        (machine.execute 0x8014).machine.get Registers.flag := by
  intro machine
  obtain ⟨words, restores⟩ := arithmetic_under_aliasing machine
  obtain ⟨-, -, -, -, adds, -⟩ := words 0x8ff4 (by decide)
  obtain ⟨sum, carry, writes, isSum⟩ := adds (by decide)
  obtain ⟨first, second⟩ := restores 0 1 (by decide) (by decide) (by decide)
  refine ⟨?_, first, second⟩
  have total : 256 * carry.toNat + sum.toNat = 0x102 := isSum
  have small := sum.toNat_lt
  rw [writes.get_flag, ← UInt8.toNat_inj]
  show carry.toNat = 1
  omega

end ChipEight.Machine
