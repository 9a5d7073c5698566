/-
**Writing and reading registers.**

A byte register that was set holds what it was set to, and the others hold what they held. Most
operations change neither the stack nor its pointer: `Registers.stackState` is the two together.
-/

import ChipEight.Registers

namespace ChipEight.Registers

theorem get_set (registers : Registers) (register other : Fin 16) (value : UInt8) :
    (registers.set register value).get other =
      if register = other then value else registers.get other := by
  unfold get set
  show (registers.v.setIfInBounds register.val value)[other.val] = _
  rw [Vector.getElem_setIfInBounds other.isLt]
  simp only [Fin.ext_iff]
  rfl

@[simp]
theorem get_set_self (registers : Registers) (register : Fin 16) (value : UInt8) :
    (registers.set register value).get register = value := by
  rw [get_set, if_pos rfl]

theorem get_set_of_ne (registers : Registers) {register other : Fin 16} (value : UInt8)
    (different : register ≠ other) :
    (registers.set register value).get other = registers.get other := by
  rw [get_set, if_neg different]

/-- Setting a register changes no other one. -/
theorem eq_of_set_changed {registers : Registers} {register other : Fin 16} {value : UInt8}
    (changed : (registers.set register value).get other ≠ registers.get other) :
    other = register :=
  Decidable.byContradiction fun different =>
    changed (get_set_of_ne registers value (Ne.symm different))

/-- Of two values for a register the second one stays. -/
theorem set_set (registers : Registers) (register : Fin 16) (value again : UInt8) :
    (registers.set register value).set register again = registers.set register again := by
  unfold set
  rw [Vector.setIfInBounds_setIfInBounds]

/-- Setting a register to what it holds changes nothing. -/
theorem set_get_self (registers : Registers) (register : Fin 16) :
    registers.set register (registers.get register) = registers := by
  unfold set get
  congr 1
  ext place inside
  rw [Vector.getElem_setIfInBounds inside]
  split
  · rename_i same
    subst same
    rfl
  · rfl

/-! ### The flag -/

theorem eq_of_setWithFlag_changed {registers : Registers} {register other : Fin 16} {value : UInt8}
    {carry : Bool}
    (changed : (registers.setWithFlag register value carry).get other ≠ registers.get other) :
    other = register ∨ other = flag := by
  by_cases isFlag : other = flag
  · exact .inr isFlag
  · rw [setWithFlag, get_set_of_ne _ _ (Ne.symm isFlag)] at changed
    exact .inl (eq_of_set_changed changed)

/-- Raising the flag leaves every other byte register. -/
theorem get_raiseFlagIf_of_ne (registers : Registers) (condition : Bool) {register : Fin 16}
    (noFlag : register ≠ flag) :
    (registers.raiseFlagIf condition).get register = registers.get register := by
  cases condition with
  | false => rfl
  | true => exact get_set_of_ne registers 1 noFlag.symm

theorem get_flag_raiseFlagIf (registers : Registers) (condition : Bool) :
    (registers.raiseFlagIf condition).get flag = if condition then 1 else registers.get flag := by
  cases condition with
  | false => rfl
  | true => exact registers.get_set_self flag 1

/-- Raising the flag is setting it to what it holds afterwards. -/
theorem raiseFlagIf_eq_set (registers : Registers) (condition : Bool) :
    registers.raiseFlagIf condition =
      registers.set flag ((registers.raiseFlagIf condition).get flag) := by
  cases condition with
  | false => exact (registers.set_get_self flag).symm
  | true => exact congrArg (registers.set flag) (registers.get_set_self flag 1).symm

theorem index_raiseFlagIf (registers : Registers) (condition : Bool) :
    (registers.raiseFlagIf condition).index = registers.index := by
  cases condition <;> rfl

/-- Raising the flag once or twice is the same. -/
theorem raiseFlagIf_raiseFlagIf (registers : Registers) (first second : Bool) :
    (registers.raiseFlagIf first).raiseFlagIf second = registers.raiseFlagIf (first || second) := by
  cases first <;> cases second
  · rfl
  · rfl
  · rfl
  · exact registers.set_set flag 1 1

/-- The byte registers after raising the flag depend on the byte registers only. -/
theorem raiseFlagIf_congr {registers others : Registers} (same : registers.v = others.v)
    (condition : Bool) : (registers.raiseFlagIf condition).v = (others.raiseFlagIf condition).v := by
  cases condition with
  | false => exact same
  | true => exact congrArg (fun v => v.setIfInBounds flag 1) same

theorem size_first (registers : Registers) {count : Nat} (few : count ≤ 16) :
    (registers.first count).size = count := by
  simp only [first, Array.size_extract, Vector.size_toArray]
  omega

/-! ### Counter and stack -/

/-- A counter that is not at the end of its range does not run over when it passes an instruction. -/
theorem skip_toNat (registers : Registers) (room : registers.pc.toNat + 2 < 65536) :
    registers.skip.pc.toNat = registers.pc.toNat + 2 := by
  show (registers.pc + 2).toNat = _
  rw [UInt16.toNat_add]
  exact Nat.mod_eq_of_lt room

/-- The pointer of an empty stack runs around when it is lowered. -/
theorem lowered_toNat (sp : UInt16) : (sp - 1).toNat = (sp.toNat + 65535) % 65536 := by
  rw [UInt16.toNat_sub]
  show (65536 - 1 + sp.toNat) % 65536 = _
  omega

/-- The pointer of a stack with a free slot does not run over when it is raised. -/
theorem raised_toNat {sp : UInt16} (room : sp.toNat < 12) : (sp + 1).toNat = sp.toNat + 1 := by
  rw [UInt16.toNat_add]
  show (sp.toNat + 1) % 65536 = _
  omega

/-- A pointer is right behind the slot that it is lowered to, if there is one. -/
theorem pointer_of_slot {sp : UInt16} (slot : (sp - 1).toNat < 12) :
    sp.toNat = (sp - 1).toNat + 1 := by
  have bound := sp.toNat_lt
  rw [lowered_toNat] at slot ⊢
  omega

/-- Both ends of the stack are out of its bounds. -/
theorem no_slot_iff (sp : UInt16) : ¬ (sp - 1).toNat < 12 ↔ sp = 0 ∨ 12 < sp.toNat := by
  have bound := sp.toNat_lt
  rw [lowered_toNat, ← UInt16.toNat_inj]
  show _ ↔ sp.toNat = 0 ∨ _
  omega

/-- The stack with its pointer. -/
def stackState (registers : Registers) : UInt16 × Vector UInt16 12 :=
  (registers.sp, registers.stack)

end ChipEight.Registers
