/-
**What instructions do.**

`Instruction.meaning` says of every instruction what it does to a machine. It is stated without
words and without the dispatch on their digits: operands are numbers, a register number counts by
its low four bits, and results are numbers that a register cuts down to a byte. Memory is written by
overlays, and a sprite is drawn by flipping each pixel as often as it is a target.

`returnFromCall_meaning`, `call_meaning`, `draw_meaning`, `storeDigits_meaning`,
`storeRegisters_meaning` and `loadRegisters_meaning` say that the longer instructions are carried
out as they are meant.
-/

import Mathlib.Tactic.Common
import ChipEight.Execution
import ChipEight.Instruction.Basic
import ChipEight.Proofs.Drawing
import ChipEight.Proofs.Memory
import ChipEight.Proofs.Overlay
import ChipEight.Proofs.Registers

namespace ChipEight

/-- The register or key that a number names by its low four bits. -/
def Registers.named (x : Nat) : Fin 16 :=
  (BitVec.ofNat 4 x).toFin

namespace Machine

/-- The number in a byte register, which is given by number itself. -/
def value (machine : Machine) (x : Nat) : Nat :=
  (machine.get (Registers.named x)).toNat

/-- Puts a number into a byte register. -/
def putting (machine : Machine) (x value : Nat) : Outcome Unit :=
  .done () { machine with
    registers := machine.registers.set (Registers.named x) (UInt8.ofNat value) }

/-- Puts a number into a byte register, and then one or zero into the flag. -/
def puttingWithFlag (machine : Machine) (x value : Nat) (flag : Bool) : Outcome Unit :=
  .done () { machine with registers :=
    machine.registers.setWithFlag (Registers.named x) (UInt8.ofNat value) flag }

/-- Moves the counter over one instruction if the condition holds. -/
def skipping (machine : Machine) (condition : Bool) : Outcome Unit :=
  .done () { machine with registers := machine.registers.skipIf condition }

/-- The index register behind a block that begins there, if the variant moves it. -/
def indexBehind (machine : Machine) (length : Nat) : UInt16 :=
  if machine.variant.advanceIndex then machine.registers.index + UInt16.ofNat length
  else machine.registers.index

end Machine

/-- **What an instruction does.** -/
def Instruction.meaning (machine : Machine) : Instruction → Outcome Unit
  | clearScreen => .done () { machine with screen := machine.screen.erase }
  | returnFromCall =>
    let sp := machine.registers.sp - 1
    if inside : sp.toNat < 12 then
      .done () { machine with
        registers := { machine.registers with sp, pc := machine.registers.stack[sp.toNat] } }
    else .outOfBounds { machine with registers := { machine.registers with sp } }
  | jump target => .done () { machine with registers := { machine.registers with pc := target } }
  | call target =>
    if machine.registers.sp.toNat < 12 then
      .done () { machine with
        registers := { machine.registers with
          stack := machine.registers.stack.setIfInBounds machine.registers.sp.toNat
            machine.registers.pc
          sp := machine.registers.sp + 1
          pc := target } }
    else .outOfBounds machine
  | skipIfByte x byte => machine.skipping (machine.value x = byte.toNat)
  | skipUnlessByte x byte => machine.skipping (machine.value x ≠ byte.toNat)
  | skipIfEqual x y => machine.skipping (machine.value x = machine.value y)
  | skipUnlessEqual x y => machine.skipping (machine.value x ≠ machine.value y)
  | loadByte x byte => machine.putting x byte.toNat
  | addByte x byte => machine.putting x (machine.value x + byte.toNat)
  | copy x y => machine.putting x (machine.value y)
  | bitOr x y => machine.putting x (machine.value x ||| machine.value y)
  | bitAnd x y => machine.putting x (machine.value x &&& machine.value y)
  | bitXor x y => machine.putting x (machine.value x ^^^ machine.value y)
  | add x y =>
    machine.puttingWithFlag x (machine.value x + machine.value y)
      (255 < machine.value x + machine.value y)
  | subtract x y =>
    machine.puttingWithFlag x (256 + machine.value x - machine.value y)
      (machine.value x < machine.value y)
  | subtractFrom x y =>
    machine.puttingWithFlag x (256 + machine.value y - machine.value x)
      (machine.value x < machine.value y)
  | shiftRight x _ =>
    machine.puttingWithFlag x (machine.value x / 2) ((machine.value x).testBit 0)
  | shiftLeft x _ =>
    machine.puttingWithFlag x (2 * machine.value x) ((machine.value x).testBit 7)
  | setIndex value => .done () { machine with registers := { machine.registers with index := value } }
  | jumpFrom target =>
    .done () { machine with
      registers := { machine.registers with pc := UInt16.ofNat (machine.value 0 + target.toNat) } }
  | random x mask =>
    .done () { machine with
      registers := machine.registers.set (Registers.named x) (machine.source.next.1 &&& mask)
      source := machine.source.next.2 }
  | draw x y height =>
    let rows := machine.memory.available machine.registers.index.toNat height.toNat
    let targets := Sprite.targets machine.variant.wrapSprites (machine.value x) (machine.value y) rows
    let reached := targets.takeWhile (· < machine.screen.size)
    let drawn := { machine with
      screen := machine.screen.flipped reached
      registers := machine.registers.raiseFlagIf (machine.screen.Collides reached) }
    if reached = targets ∧ rows.length = height.toNat then .done () drawn else .outOfBounds drawn
  | skipIfKey x => machine.skipping (machine.registers.isDown (Registers.named (machine.value x)))
  | skipUnlessKey x =>
    machine.skipping !machine.registers.isDown (Registers.named (machine.value x))
  | readDelay x => machine.putting x machine.registers.delay.toNat
  | awaitKey x =>
    (Outcome.done () { machine with control.settings.waiting := true }).reporting
      (.awaitingKey (Registers.named x))
  | setDelay x =>
    .done () { machine with
      registers := { machine.registers with delay := UInt8.ofNat (machine.value x) } }
  | setSound x =>
    .done () { machine with
      registers := { machine.registers with sound := UInt8.ofNat (machine.value x) } }
  | addIndex x =>
    .done () { machine with
      registers := { machine.registers with
        index := UInt16.ofNat (machine.registers.index.toNat + machine.value x) } }
  | pointAtGlyph x =>
    .done () { machine with
      registers := { machine.registers with index := UInt16.ofNat (5 * machine.value x) } }
  | storeDigits x =>
    let digits := [machine.value x / 100, machine.value x / 10 % 10, machine.value x % 10]
    let stored := { machine with
      memory := machine.memory.overlay machine.registers.index.toNat (digits.map UInt8.ofNat) }
    if machine.registers.index.toNat + 2 < machine.memory.size then .done () stored
    else .outOfBounds stored
  | storeRegisters x =>
    let length := x % 16 + 1
    if machine.registers.index.toNat + length ≤ machine.memory.size then
      .done () { machine with
        memory := machine.memory.overlay machine.registers.index.toNat
          (machine.registers.v.toList.take length)
        registers := { machine.registers with index := machine.indexBehind length } }
    else .outOfBounds machine
  | loadRegisters x =>
    let length := x % 16 + 1
    let start := machine.registers.index.toNat
    if start + length ≤ machine.memory.size then
      .done () { machine with
        registers := { machine.registers with
          v := Vector.ofFn fun register =>
            if register.val < length then (machine.memory.byte? (start + register)).getD 0
            else machine.get register
          index := machine.indexBehind length } }
    else .outOfBounds machine

theorem Registers.named_val (register : Fin 16) : named register = register :=
  Fin.ext (Nat.mod_eq_of_lt register.isLt)

/-! ### Bytes as numbers -/

namespace Byte

variable (a b : UInt8)

theorem decide_toNat_eq : decide (a.toNat = b.toNat) = (a == b) := by
  simp only [UInt8.toNat_inj, Bool.beq_eq_decide_eq]

theorem decide_toNat_ne : decide (a.toNat ≠ b.toNat) = (a != b) := by
  rw [decide_not, decide_toNat_eq]
  rfl

theorem ofNat_sub_toNat : UInt8.ofNat (256 + a.toNat - b.toNat) = a - b := by
  have small := b.toNat_lt
  rw [← UInt8.toNat_inj, UInt8.toNat_sub, UInt8.toNat_ofNat']
  show _ = (256 - b.toNat + a.toNat) % 256
  omega

theorem ofNat_half : UInt8.ofNat (a.toNat / 2) = a / 2 := by
  have small := a.toNat_lt
  rw [← UInt8.toNat_inj, UInt8.toNat_ofNat', UInt8.toNat_div]
  show _ = a.toNat / 2
  omega

theorem ofNat_double : UInt8.ofNat (2 * a.toNat) = a + a := by
  rw [Nat.two_mul, UInt8.ofNat_add, UInt8.ofNat_toNat]

theorem ofNat_toNat_wide : UInt16.ofNat a.toNat = a.toUInt16 := by
  rw [← UInt16.toNat_inj, UInt16.toNat_ofNat', UInt8.toNat_toUInt16]
  have small := a.toNat_lt
  omega

theorem testBit_lowest : a.toNat.testBit 0 = decide (a % 2 = 1) := by
  rw [Nat.testBit_eq_decide_div_mod_eq]
  refine decide_eq_decide.mpr ?_
  rw [← UInt8.toNat_inj, UInt8.toNat_mod, Nat.pow_zero, Nat.div_one]
  rfl

theorem testBit_highest : a.toNat.testBit 7 = decide (128 ≤ a) := by
  have small := a.toNat_lt
  rw [Nat.testBit_eq_decide_div_mod_eq]
  refine decide_eq_decide.mpr ?_
  rw [UInt8.le_iff_toNat_le]
  show a.toNat / 128 % 2 = 1 ↔ 128 ≤ a.toNat
  omega

end Byte

namespace Machine

variable (machine : Machine) (x y : Fin 16)

/-! ### Handlers and meanings -/

theorem value_eq : machine.value x = (machine.get x).toNat := by
  unfold value
  rw [Registers.named_val]

/-- A number in a byte register, by the byte that it is cut down to. -/
theorem putting_eq {value : Nat} {byte : UInt8} (same : UInt8.ofNat value = byte) :
    machine.putting x value = .done () (machine.mapRegisters (·.set x byte)) := by
  unfold putting
  rw [Registers.named_val, same]
  rfl

theorem puttingWithFlag_eq {value : Nat} {byte : UInt8} {flag carry : Bool}
    (same : UInt8.ofNat value = byte) (sameFlag : flag = carry) :
    machine.puttingWithFlag x value flag =
      .done () (machine.mapRegisters (·.setWithFlag x byte carry)) := by
  unfold puttingWithFlag
  rw [Registers.named_val, same, sameFlag]
  rfl

theorem skipping_eq {condition other : Bool} (same : condition = other) :
    machine.skipping condition = .done () (machine.mapRegisters (·.skipIf other)) := by
  rw [same]
  rfl

theorem returnFromCall_meaning :
    machine.returnFromCall = Instruction.returnFromCall.meaning machine := by
  simp only [returnFromCall, Instruction.meaning, mapRegisters]
  split <;> rename_i found
  · rw [dif_neg (by simpa using found)]
  · obtain ⟨inside, rfl⟩ := Vector.getElem?_eq_some_iff.mp found
    rw [dif_pos inside]

theorem call_meaning (target : UInt16) :
    machine.call target = (Instruction.call target).meaning machine :=
  rfl

/-- The digits of a byte as bytes and as numbers. -/
theorem decimalDigits_eq (byte : UInt8) :
    decimalDigits byte =
      [byte.toNat / 100, byte.toNat / 10 % 10, byte.toNat % 10].map UInt8.ofNat := by
  have bound := byte.toNat_lt
  simp only [decimalDigits, List.map_cons, List.map_nil, ← UInt8.toNat_inj, List.cons.injEq,
    UInt8.toNat_ofNat', UInt8.toNat_div, UInt8.toNat_mod, and_true]
  refine ⟨?_, ?_, ?_⟩ <;> simp <;> omega

/-- Drawing flips each pixel as often as it is a target. -/
theorem draw_meaning {height : Nat} (low : height < 256) :
    machine.draw x y height = (Instruction.draw x y (UInt8.ofNat height)).meaning machine := by
  have same : (UInt8.ofNat height).toNat = height := by
    rw [UInt8.toNat_ofNat']
    exact Nat.mod_eq_of_lt low
  simp only [draw, Instruction.meaning, Screen.flipAll_eq, value_eq, same, Bool.and_eq_true,
    decide_eq_true_eq, beq_iff_eq]

/-- A drawing changes the screen and may raise the flag, even if it ends early. -/
theorem draw_eq (height : Nat) :
    ∃ answer targets, (answer = .ok () ∨ answer = .error .outOfBounds) ∧
      machine.draw x y height = ⟨answer, { machine with
        screen := (machine.screen.flipAll targets).screen
        registers := machine.registers.raiseFlagIf (machine.screen.flipAll targets).collided },
        []⟩ := by
  unfold draw
  simp only
  split
  · exact ⟨_, _, .inl rfl, rfl⟩
  · exact ⟨_, _, .inr rfl, rfl⟩

theorem draw_outOfBounds_iff (height : Nat) (full : machine.screen.size = Screen.standardSize) :
    (machine.draw x y height).answer = .error .outOfBounds ↔
      0 < height ∧ machine.memory.size < machine.registers.index.toNat + height := by
  unfold draw
  simp only
  rw [Screen.flipAll_complete, Bool.true_and]
  · split
    · rename_i whole
      rw [beq_iff_eq, Memory.length_available] at whole
      simp only [Outcome.done_answer, reduceCtorEq, false_iff]
      omega
    · rename_i short
      rw [beq_iff_eq, Memory.length_available] at short
      simp only [Outcome.outOfBounds_answer, true_iff]
      omega
  · intro index member
    rw [full]
    exact Sprite.targets_lt _ _ _ _ index member

theorem storeDigits_meaning :
    machine.storeDigits x = (Instruction.storeDigits x).meaning machine := by
  have room : (machine.memory.storeEach machine.registers.index.toNat
      (decimalDigits (machine.get x))).2 = true ↔
        machine.registers.index.toNat + 2 < machine.memory.size :=
    Memory.storeEach_complete_iff machine.memory machine.registers.index.toNat _ _
  simp only [storeDigits, Instruction.meaning, value_eq, room, Memory.storeEach_eq_overlay]
  rw [decimalDigits_eq]

theorem passBlock_meaning :
    machine.passBlock x = { machine with
      registers := { machine.registers with index := machine.indexBehind (x.val + 1) } } := by
  unfold passBlock indexBehind
  split <;> rfl

theorem storeRegisters_meaning :
    machine.storeRegisters x = (Instruction.storeRegisters x).meaning machine := by
  have few : (machine.registers.first (x + 1)).size = x.val + 1 := Registers.size_first _ x.isLt
  have block : (machine.registers.first (x + 1)).toList =
      machine.registers.v.toList.take (x.val + 1) := by
    simp [Registers.first, Vector.toList]
  simp only [storeRegisters, Instruction.meaning, Memory.splice?_eq_overlay, few, block,
    Nat.mod_eq_of_lt x.isLt]
  by_cases room : machine.registers.index.toNat + (x.val + 1) ≤ machine.memory.size
  · simp only [if_pos room, passBlock_meaning]
    rfl
  · simp only [if_neg room]

theorem variant_mapRegisters (change : Registers → Registers) :
    (machine.mapRegisters change).variant = machine.variant :=
  rfl

theorem indexBehind_mapRegisters {change : Registers → Registers} (length : Nat)
    (same : (change machine.registers).index = machine.registers.index) :
    (machine.mapRegisters change).indexBehind length = machine.indexBehind length := by
  unfold indexBehind
  rw [variant_mapRegisters, show (machine.mapRegisters change).registers.index = _ from same]

theorem loadRegisters_meaning :
    machine.loadRegisters x = (Instruction.loadRegisters x).meaning machine := by
  simp only [loadRegisters, Instruction.meaning, Nat.mod_eq_of_lt x.isLt, Memory.slice?]
  by_cases room : machine.registers.index.toNat + (x.val + 1) ≤ machine.memory.size
  · rw [if_pos room, if_pos ⟨by omega, by omega⟩]
    have loaded : (Registers.setFirst machine.registers (machine.memory.bytes.extract
        machine.registers.index.toNat (machine.registers.index.toNat + x + 1))).v =
        Vector.ofFn fun register => if register.val < x.val + 1 then
          (machine.memory.byte? (machine.registers.index.toNat + register)).getD 0
          else machine.get register := by
      refine Vector.ext fun place inside => ?_
      simp only [Registers.setFirst, Vector.getElem_ofFn, Array.getElem?_extract]
      unfold Memory.size at room
      by_cases within : place < x.val + 1
      · rw [if_pos within, if_pos (by omega), Memory.byte?,
          Array.getElem?_eq_getElem (by omega), Option.getD_some, Option.getD_some]
      · rw [if_neg within, if_neg (by omega), Option.getD_none]
        rfl
    simp only [passBlock_meaning]
    rw [indexBehind_mapRegisters machine _ rfl, ← loaded]
    simp only [mapRegisters, Registers.setFirst]
  · rw [if_neg room, if_neg (by omega)]

end Machine

end ChipEight
