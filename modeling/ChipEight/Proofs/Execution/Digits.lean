/-
**The decimal digits of a byte, stored and loaded.**

A byte has three decimal digits, and storing them takes three bytes of memory. Loading the first
three registers from the same place brings them back, even if the byte itself was in one of these
registers:

* `Byte.HasDigits`, with `exists_digits`: the digits of a byte;
* `Memory.byte?_overlay_three`: memory with three bytes laid over it;
* `execute_storeDigits`: storing the digits of a register, if memory has room for all three;
* `digits_read_back`: what is stored, and what a load of the first three registers makes of it.
-/

import ChipEight.Proofs.Session.BlockTransfer

namespace ChipEight

/-! ### Digits -/

/-- **Three bytes are the decimal digits of a byte**: each of them is a digit, and their sum by place
value is the byte. -/
structure Byte.HasDigits (byte hundreds tens ones : UInt8) : Prop where
  hundreds_le : hundreds.toNat ≤ 9
  tens_le : tens.toNat ≤ 9
  ones_le : ones.toNat ≤ 9
  sum : 100 * hundreds.toNat + 10 * tens.toNat + ones.toNat = byte.toNat

/-- The three bytes that a machine takes for the digits of a byte are its digits. -/
theorem Machine.exists_digits (byte : UInt8) :
    ∃ hundreds tens ones, decimalDigits byte = [hundreds, tens, ones] ∧
      Byte.HasDigits byte hundreds tens ones := by
  have small := byte.toNat_lt
  have fits : ∀ digit ≤ 9, (UInt8.ofNat digit).toNat = digit := by decide
  have hundreds := fits (byte.toNat / 100) (by omega)
  have tens := fits (byte.toNat / 10 % 10) (by omega)
  have ones := fits (byte.toNat % 10) (by omega)
  exact ⟨_, _, _, decimalDigits_eq byte, by omega, by omega, by omega, by omega⟩

/-- Memory with three bytes laid over it, all of which it holds. -/
theorem Memory.byte?_overlay_three (memory : Memory) {start : Nat} (first second third : UInt8)
    (room : start + 2 < memory.size) (address : Nat) :
    (memory.overlay start [first, second, third]).byte? address =
      if address = start then some first
      else if address = start + 1 then some second
      else if address = start + 2 then some third
      else memory.byte? address := by
  by_cases inside : start ≤ address ∧ address < start + 3
  · obtain ⟨place, rfl⟩ := Nat.exists_eq_add_of_le inside.1
    have near : place < [first, second, third].length := Nat.lt_of_add_lt_add_left inside.2
    rw [byte?_overlay_inside _ _ near (by omega)]
    match place with
    | 0 | 1 | 2 => simp
  · have outside : address < start ∨ start + [first, second, third].length ≤ address := by
      simp only [List.length_cons, List.length_nil]
      omega
    rw [byte?_overlay_outside _ _ outside, if_neg (by omega), if_neg (by omega), if_neg (by omega)]

namespace Machine

variable {machine : Machine} {word : Word}

/-! ### Storing and loading -/

/-- **Storing the digits of a register**, if memory has room for all three. -/
theorem execute_storeDigits (itself : word.IsDevice 0x33)
    (inside : machine.registers.index.toNat + 2 < machine.memory.size) :
    machine.execute word = .done () { machine.note word with
      memory := machine.memory.overlay machine.registers.index.toNat
        (decimalDigits (machine.get word.x)) } := by
  refine (perform_of_reads (.storeDigits itself)).trans ?_
  rw [decimalDigits_eq, ← value_eq]
  exact if_pos inside

/-- **Digits that were stored come back.** If memory has room for three bytes at the index register,
the word that stores the digits of a register succeeds, writes the three digits, and changes no other
byte and no register. Loading the first three registers right after it puts the digits into them,
even where the byte itself was in one of them, so it can be put together again. -/
theorem digits_read_back (machine : Machine) (word : Word) (itself : word.IsDevice 0x33)
    (inside : machine.registers.index.toNat + 2 < machine.memory.size) :
    let start := machine.registers.index.toNat
    let stored := machine.execute word
    let loaded := stored.machine.execute 0xf265
    ∃ hundreds tens ones : UInt8, Byte.HasDigits (machine.get word.x) hundreds tens ones ∧
      stored.answer = .ok () ∧
      (∀ address, stored.machine.memory.byte? address =
        if address = start then some hundreds
        else if address = start + 1 then some tens
        else if address = start + 2 then some ones
        else machine.memory.byte? address) ∧
      stored.machine = { machine.note word with memory := stored.machine.memory } ∧
      loaded.answer = .ok () ∧
      loaded.machine.get 0 = hundreds ∧ loaded.machine.get 1 = tens ∧ loaded.machine.get 2 = ones ∧
      (∀ register > 2, loaded.machine.get register = machine.get register) ∧
      100 * (loaded.machine.get 0).toNat + 10 * (loaded.machine.get 1).toNat
        + (loaded.machine.get 2).toNat = (machine.get word.x).toNat := by
  intro start stored loaded
  obtain ⟨hundreds, tens, ones, list, digits⟩ := exists_digits (machine.get word.x)
  have storing : stored = _ := execute_storeDigits itself inside
  rw [list] at storing
  have memory : stored.machine.memory = machine.memory.overlay start [hundreds, tens, ones] := by
    rw [storing]
    rfl
  have held : start + 2 < machine.memory.size := inside
  have bytes := machine.memory.byte?_overlay_three hundreds tens ones held
  rw [← memory] at bytes
  have index : stored.machine.registers.index.toNat = start := by
    rw [storing]
    rfl
  have room : stored.machine.registers.index.toNat + ((0xf265 : Word).x + 1) ≤
      stored.machine.memory.size := by
    rw [index, memory, Memory.size_overlay]
    exact held
  have loading : loaded = _ := execute_load stored.machine ⟨by decide, by decide⟩ room
  have low : ∀ register ≤ (0xf265 : Word).x, some (loaded.machine.get register) =
      stored.machine.memory.byte? (start + register) := by
    intro register near
    rw [loading, ← index]
    exact loadedFile_low near room
  have first : loaded.machine.get 0 = hundreds := by
    simpa [bytes] using low 0 (by decide)
  have second : loaded.machine.get 1 = tens := by
    simpa [bytes] using low 1 (by decide)
  have third : loaded.machine.get 2 = ones := by
    simpa [bytes] using low 2 (by decide)
  refine ⟨hundreds, tens, ones, digits, ?_, bytes, ?_, ?_, first, second, third, ?_, ?_⟩
  · rw [storing]
    rfl
  · rw [storing]
    rfl
  · rw [loading]
    rfl
  · intro register far
    rw [loading]
    refine (loadedFile_high far).trans ?_
    rw [storing]
    rfl
  · rw [first, second, third]
    exact digits.sum

/-- The number is in the second register, which the tens overwrite, and memory ends behind the
ones. -/
theorem digits_read_back_overwritten :
    let machine : Machine := { new (.ofSeed 0) with
      memory := ⟨#[0xff, 0xff, 0xff, 0xff]⟩
      registers := { Registers.blank.set 1 234 with index := 1 } }
    Word.IsDevice 0xf133 0x33 ∧ machine.registers.index.toNat + 2 < machine.memory.size ∧
      (machine.execute 0xf133).machine.memory.byte? 0 = some 0xff ∧
      ((machine.execute 0xf133).machine.execute 0xf265).machine.get 1 = 3 := by
  intro machine
  have itself : Word.IsDevice 0xf133 0x33 := ⟨by decide, by decide⟩
  have inside : machine.registers.index.toNat + 2 < machine.memory.size := by decide
  obtain ⟨hundreds, tens, ones, digits, -, bytes, -, -, -, second, -⟩ :=
    digits_read_back machine 0xf133 itself inside
  refine ⟨itself, inside, (bytes 0).trans rfl, ?_⟩
  have number : (machine.get (Word.x 0xf133)).toNat = 234 := by decide
  obtain ⟨hundredsSmall, tensSmall, onesSmall, sum⟩ := digits
  rw [second, ← UInt8.toNat_inj]
  show tens.toNat = 3
  omega

end Machine

end ChipEight
