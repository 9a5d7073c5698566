/-
**Adjustments that a program overlooks.**

A host can adjust parts of a machine that a program on it hardly looks at: whether instructions are
reported, where random bytes come from, the timers and the keys (`Adjustment`). Few instructions look
at one of these parts or write it, and `Instruction.Overlooks` lists them. All others do the same with
an adjustment as without it, and keep it:

* `meaning_adjust`: an instruction that overlooks an adjustment;
* `perform_adjust`, `execute_adjust`: a word.
-/

import ChipEight.Proofs.Instruction.Reading

namespace ChipEight

/-- **An adjustment of a machine** that is no business of most instructions. -/
inductive Adjustment where
  | debugging (debug : Bool)
  | source (source : RandomSource)
  | timers (delay sound : UInt8)
  | keys (keys : Vector Bool 16)

/-- The machine with an adjustment. -/
def Machine.adjust (machine : Machine) : Adjustment → Machine
  | .debugging debug => { machine with control.settings.debug := debug }
  | .source source => { machine with source }
  | .timers delay sound => machine.mapRegisters fun registers => { registers with delay, sound }
  | .keys keys => machine.mapRegisters fun registers => { registers with keys }

/-- The outcome with an adjustment of the machine that it left. -/
def Outcome.adjust {α : Type} (outcome : Outcome α) (adjustment : Adjustment) : Outcome α :=
  { outcome with machine := outcome.machine.adjust adjustment }

/-- The key that a register asks for. -/
def Registers.askedKey (registers : Registers) (x : Nat) : Fin 16 :=
  named (registers.get (named x)).toNat

/-- **Whether an instruction does not notice an adjustment.** One that asks for a key does not, as
long as that key is as it was. -/
def Instruction.Overlooks (registers : Registers) : Adjustment → Instruction → Prop
  | .source _, random _ _ => False
  | .timers _ _, readDelay _ => False
  | .timers _ _, setDelay _ => False
  | .timers _ _, setSound _ => False
  | .keys keys, skipIfKey x => keys.get (registers.askedKey x) = registers.isDown (registers.askedKey x)
  | .keys keys, skipUnlessKey x =>
    keys.get (registers.askedKey x) = registers.isDown (registers.askedKey x)
  | _, _ => True

/-- Whether all that a word may be carried out as does not notice an adjustment. -/
def Word.Overlooks (word : Word) (registers : Registers) (adjustment : Adjustment) : Prop :=
  ∀ instruction, word.ReadsAs instruction → instruction.Overlooks registers adjustment

namespace Machine

variable {machine : Machine} {adjustment : Adjustment} {instruction : Instruction}
  {word : Word}

/-! ### Instructions -/

theorem skipping_adjust (machine : Machine) (adjustment : Adjustment) (condition : Bool) :
    (machine.adjust adjustment).skipping condition =
      (machine.skipping condition).adjust adjustment := by
  cases adjustment <;> cases condition <;> rfl

/-- What depends on a condition that the adjustment does not concern. -/
theorem ite_adjust {condition : Prop} [Decidable condition]
    {left right leftAdjusted rightAdjusted : Outcome Unit}
    (first : leftAdjusted = left.adjust adjustment)
    (second : rightAdjusted = right.adjust adjustment) :
    (if condition then leftAdjusted else rightAdjusted) =
      (if condition then left else right).adjust adjustment := by
  rw [first, second]
  exact (apply_ite (·.adjust adjustment) condition left right).symm

/-- Drawing raises the flag or leaves it, whatever the adjustment. -/
theorem raiseFlagIf_adjust (machine : Machine) (adjustment : Adjustment) (screen : Screen)
    (condition : Bool) :
    { machine.adjust adjustment with
        screen, registers := (machine.adjust adjustment).registers.raiseFlagIf condition } =
      { machine with screen, registers := machine.registers.raiseFlagIf condition }.adjust
        adjustment := by
  cases adjustment <;> cases condition <;> rfl

/-- **An instruction that overlooks an adjustment** does with it what it does without it. -/
theorem meaning_adjust (overlooks : instruction.Overlooks machine.registers adjustment) :
    instruction.meaning (machine.adjust adjustment) =
      (instruction.meaning machine).adjust adjustment := by
  cases instruction with
  | draw x y height =>
    have drawn := raiseFlagIf_adjust machine adjustment
    cases adjustment <;>
      exact ite_adjust (congrArg (Outcome.done ()) (drawn _ _))
        (congrArg Outcome.outOfBounds (drawn _ _))
  | returnFromCall =>
    by_cases inside : (machine.registers.sp - 1).toNat < 12
    · have found : Instruction.returnFromCall.meaning machine = _ := dif_pos inside
      rw [found]
      cases adjustment <;> exact dif_pos inside
    · have missed : Instruction.returnFromCall.meaning machine = _ := dif_neg inside
      rw [missed]
      cases adjustment <;> exact dif_neg inside
  | call | storeDigits | storeRegisters | loadRegisters =>
    cases adjustment <;> exact ite_adjust rfl rfl
  | random x mask =>
    cases adjustment with
    | source source => exact overlooks.elim
    | _ => rfl
  | readDelay x | setDelay x | setSound x =>
    cases adjustment with
    | timers delay sound => exact overlooks.elim
    | _ => rfl
  | skipIfKey x =>
    cases adjustment with
    | keys keys =>
      exact (congrArg (skipping _) overlooks).trans (skipping_adjust machine _ _)
    | _ => exact skipping_adjust machine _ _
  | skipUnlessKey x =>
    cases adjustment with
    | keys keys =>
      exact (congrArg (fun down => skipping _ !down) overlooks).trans (skipping_adjust machine _ _)
    | _ => exact skipping_adjust machine _ _
  | skipIfByte | skipUnlessByte | skipIfEqual | skipUnlessEqual =>
    cases adjustment <;> exact skipping_adjust machine _ _
  | _ => cases adjustment <;> rfl

/-! ### Words -/

theorem unknown_adjust (machine : Machine) (adjustment : Adjustment) (word : Word) :
    (machine.adjust adjustment).unknown word = (machine.unknown word).adjust adjustment := by
  cases adjustment <;> rfl

theorem note_adjust (machine : Machine) (adjustment : Adjustment) (word : Word) :
    (machine.adjust adjustment).note word = (machine.note word).adjust adjustment := by
  cases adjustment <;> rfl

theorem perform_adjust (overlooks : word.Overlooks machine.registers adjustment) :
    (machine.adjust adjustment).perform word = (machine.perform word).adjust adjustment := by
  rcases word_cases word with ⟨instruction, reads⟩ | ⟨-, -, idle⟩ | ⟨-, unknown⟩
  · rw [perform_of_reads reads, perform_of_reads reads]
    exact meaning_adjust (overlooks instruction reads)
  · rw [idle, idle]
    rfl
  · rw [unknown, unknown]
    exact unknown_adjust machine adjustment word

/-- **A word that overlooks an adjustment** does with it what it does without it. -/
theorem execute_adjust (overlooks : word.Overlooks machine.registers adjustment) :
    (machine.adjust adjustment).execute word = (machine.execute word).adjust adjustment := by
  unfold execute
  rw [note_adjust]
  exact perform_adjust overlooks

end Machine

end ChipEight
