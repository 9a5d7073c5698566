/-
**Which words go out of bounds.**

A word goes out of bounds exactly if it returns from a call with no return address at hand, calls
with a full stack, or passes the end of memory (`Machine.Faults`). Registers and keys are named by
the four bits of a digit, and pixels are counted modulo the size of the screen, so none of these can
be missed.

* `faults_of_meaning`, `perform_of_faults`: the instructions that go out of bounds are those of these
  words, and so `perform_outOfBounds_iff`: on a full screen these words, and no others, do;
* `Effect.answer`: what does not go out of bounds succeeds or is unknown;
* `tick_outOfBounds_iff`: a tick goes out of bounds if it can not fetch a word or fetches such a
  one, and every other tick succeeds or meets an unknown word.

The count of executed words has sixty-four bits and is taken not to run over.
-/

import ChipEight.Proofs.Execution.Effect
import ChipEight.Proofs.Execution.Tick

namespace ChipEight.Machine

/-- **The words that go out of bounds on a machine.** -/
def Faults (machine : Machine) (word : Word) : Prop :=
  (word = 0x00ee ∧ (machine.registers.sp = 0 ∨ 12 < machine.registers.sp.toNat)) ∨
  (word.family = 0x2 ∧ 12 ≤ machine.registers.sp.toNat) ∨
  (word.family = 0xd ∧ 0 < word.n ∧
    machine.memory.size < machine.registers.index.toNat + word.n) ∨
  (word.family = 0xf ∧ word.immediate.toNat = 0x33 ∧
    machine.memory.size ≤ machine.registers.index.toNat + 2) ∨
  (word.family = 0xf ∧ (word.immediate.toNat = 0x55 ∨ word.immediate.toNat = 0x65) ∧
    machine.memory.size ≤ machine.registers.index.toNat + word.x.val)

/-! ### Words -/

variable {machine : Machine} {word : Word}

/-- An instruction goes out of bounds only for a word that is listed. -/
theorem faults_of_meaning (full : machine.screen.size = Screen.standardSize)
    {instruction : Instruction} (reads : word.ReadsAs instruction)
    (faulted : (instruction.meaning machine).answer = .error .outOfBounds) :
    machine.Faults word := by
  cases reads with
  | returnFromCall itself =>
    simp only [Instruction.meaning] at faulted
    split at faulted
    · cases faulted
    · rename_i noSlot
      exact .inl ⟨itself, (Registers.no_slot_iff _).mp noSlot⟩
  | call family =>
    obtain ⟨noRoom, -⟩ := Outcome.fault_of_ite faulted rfl
    exact .inr (.inl ⟨family, Nat.not_lt.mp noRoom⟩)
  | draw family =>
    have low := word.n_lt
    rw [← draw_meaning machine word.x word.y (by omega)] at faulted
    exact .inr (.inr (.inl ⟨family, (draw_outOfBounds_iff machine _ _ _ full).mp faulted⟩))
  | storeDigits itself =>
    obtain ⟨short, -⟩ := Outcome.fault_of_ite faulted rfl
    exact .inr (.inr (.inr (.inl ⟨itself.1, itself.2, Nat.not_lt.mp short⟩)))
  | storeRegisters itself =>
    obtain ⟨short, -⟩ := Outcome.fault_of_ite faulted rfl
    rw [Nat.mod_eq_of_lt word.x.isLt] at short
    exact .inr (.inr (.inr (.inr ⟨itself.1, .inl itself.2, by omega⟩)))
  | loadRegisters itself =>
    obtain ⟨short, -⟩ := Outcome.fault_of_ite faulted rfl
    rw [Nat.mod_eq_of_lt word.x.isLt] at short
    exact .inr (.inr (.inr (.inr ⟨itself.1, .inr itself.2, by omega⟩)))
  | _ => cases faulted

/-- A word that is listed is carried out as an instruction that goes out of bounds. -/
theorem perform_of_faults (full : machine.screen.size = Screen.standardSize)
    (faults : machine.Faults word) : (machine.perform word).answer = .error .outOfBounds := by
  rcases faults with ⟨itself, outside⟩ | ⟨family, noRoom⟩ | ⟨family, rows, past⟩ |
    ⟨family, byte, past⟩ | ⟨family, byte | byte, past⟩
  · rw [perform_of_reads (.returnFromCall itself), Instruction.meaning]
    simp only [dif_neg ((Registers.no_slot_iff _).mpr outside), Outcome.outOfBounds_answer]
  · rw [perform_of_reads (.call family), Instruction.meaning, if_neg (Nat.not_lt.mpr noRoom)]
    rfl
  · have low := word.n_lt
    rw [perform_of_reads (.draw family), ← draw_meaning machine word.x word.y (by omega)]
    exact (draw_outOfBounds_iff machine _ _ _ full).mpr ⟨rows, past⟩
  · rw [perform_of_reads (.storeDigits ⟨family, byte⟩)]
    simp only [Instruction.meaning, if_neg (Nat.not_lt.mpr past), Outcome.outOfBounds_answer]
  · rw [perform_of_reads (.storeRegisters ⟨family, byte⟩)]
    have short : ¬ machine.registers.index.toNat + (word.x.val + 1) ≤ machine.memory.size := by omega
    simp only [Instruction.meaning, Nat.mod_eq_of_lt word.x.isLt, if_neg short,
      Outcome.outOfBounds_answer]
  · rw [perform_of_reads (.loadRegisters ⟨family, byte⟩)]
    have short : ¬ machine.registers.index.toNat + (word.x.val + 1) ≤ machine.memory.size := by omega
    simp only [Instruction.meaning, Nat.mod_eq_of_lt word.x.isLt, if_neg short,
      Outcome.outOfBounds_answer]

/-- **The words that go out of bounds**, whatever was noted before. -/
theorem perform_outOfBounds_iff (machine : Machine) (word : Word)
    (full : machine.screen.size = Screen.standardSize) :
    (machine.perform word).answer = .error .outOfBounds ↔ machine.Faults word := by
  refine ⟨fun faulted => ?_, perform_of_faults full⟩
  rcases machine.perform_cases word with
    ⟨instruction, reads, performed⟩ | ⟨-, -, performed⟩ | ⟨-, performed⟩
  · rw [performed] at faulted
    exact faults_of_meaning full reads faulted
  · rw [performed] at faulted
    cases faulted
  · rw [performed] at faulted
    cases faulted

/-! ### Other answers -/

/-- An outcome that stays in bounds is a success, unless it is that of an unknown word. -/
theorem Effect.answer {word : Word} {machine : Machine} {outcome : Outcome Unit}
    (effect : Effect word machine outcome) (inside : outcome.answer ≠ .error .outOfBounds) :
    outcome.answer = .ok () ∨ outcome.answer = .error (.refused (.unknownWord word)) := by
  cases effect with
  | unknown => exact .inr rfl
  | underflow | overflow | blockOutside => exact absurd rfl inside
  | draw _ answer bounds | storeDigits _ answer bounds => exact .inl (bounds.resolve_right inside)
  | _ => exact .inl rfl

/-! ### Ticks -/

/-- A waiting machine can not go out of bounds. -/
theorem tick_waiting_answer {machine : Machine} (waiting : machine.isWaiting = true) :
    machine.tick.answer = .ok () := by
  rw [tick_waiting waiting]
  cases found : machine.registers.firstKey? with
  | none =>
    rw [pollKeys_none found]
    rfl
  | some key =>
    rw [pollKeys_some found]
    rfl

/-- A successful call moves the pointer up by one, without running over. -/
theorem perform_call_pointer {machine : Machine} {word : Word} (family : word.family = 0x2)
    (success : (machine.perform word).answer = .ok ()) :
    (machine.perform word).machine.registers.sp.toNat = machine.registers.sp.toNat + 1 := by
  rw [perform_of_reads (.call family), Instruction.meaning] at success ⊢
  split at success
  · rename_i room
    rw [if_pos room]
    exact Registers.raised_toNat room
  · cases success

/-- **The ticks that go out of bounds.** On a full screen, whatever the size of memory, a tick goes
out of bounds exactly if the machine runs and the word at the counter is not in memory or goes out
of bounds; every other tick succeeds or meets an unknown word. All targets of sprites are on the
screen, no write to a register is lost, and no call moves the pointer around. -/
theorem tick_outOfBounds_iff (machine : Machine) (full : machine.screen.size = Screen.standardSize) :
    (machine.tick.answer = .error .outOfBounds ↔
      machine.isWaiting = false ∧
        (machine.memory.size ≤ machine.registers.pc.toNat + 1 ∨
          ∃ word, machine.memory.word? machine.registers.pc.toNat = some word ∧
            machine.Faults word)) ∧
    (machine.tick.answer ≠ .error .outOfBounds →
      machine.tick.answer = .ok () ∨
        ∃ word, machine.memory.word? machine.registers.pc.toNat = some word ∧
          machine.tick.answer = .error (.refused (.unknownWord word))) ∧
    (∀ wrap column line, Sprite.target wrap column line < machine.screen.size) ∧
    (∀ register value, (machine.registers.set register value).get register = value) ∧
    (∀ word, machine.isWaiting = false →
      machine.memory.word? machine.registers.pc.toNat = some word → word.family = 0x2 →
        machine.tick.answer = .ok () →
          machine.tick.machine.registers.sp.toNat = machine.registers.sp.toNat + 1) := by
  have targets : ∀ wrap column line, Sprite.target wrap column line < machine.screen.size := by
    intro wrap column line
    rw [full]
    exact Sprite.target_lt wrap column line
  have registers := machine.registers.get_set_self
  cases waiting : machine.isWaiting with
  | true =>
    have success := tick_waiting_answer waiting
    refine ⟨?_, fun _ => .inl success, targets, registers, fun word running => by cases running⟩
    simp [success]
  | false =>
    cases found : machine.fetch? with
    | none =>
      have faulted : machine.tick.answer = .error .outOfBounds := by
        rw [tick_unfetched waiting found]
        rfl
      refine ⟨⟨fun _ => ⟨rfl, .inl (fetch?_eq_none_iff.mp found)⟩, fun _ => faulted⟩,
        fun inside => absurd faulted inside, targets, registers, fun word _ read => ?_⟩
      have outside := (Memory.word?_eq_none_iff _ _).mpr (fetch?_eq_none_iff.mp found)
      rw [outside] at read
      cases read
    | some pair =>
      obtain ⟨word, fetched⟩ := pair
      obtain ⟨read, rfl⟩ := fetch?_eq_some_iff.mp found
      have answer := tick_answer waiting found
      have reached : ¬ machine.memory.size ≤ machine.registers.pc.toNat + 1 := by
        rw [← fetch?_eq_none_iff, found]
        simp
      have faults := perform_outOfBounds_iff ((machine.mapRegisters (·.skip)).note word) word full
      rw [answer, tick_machine waiting found]
      refine ⟨?_, fun inside => ?_, targets, registers, fun other _ same family success => ?_⟩
      · rw [read]
        simp only [reached, Option.some.injEq, exists_eq_left', true_and, false_or]
        exact faults
      · rcases (perform_effect word _).answer inside with success | unknown
        · exact .inl success
        · exact .inr ⟨word, read, unknown⟩
      · obtain rfl : word = other := Option.some.inj (read.symm.trans same)
        exact perform_call_pointer family success

/-- A return in a memory of two bytes, with the pointer one past its highest value. -/
theorem tick_outOfBounds_underflow :
    let machine : Machine := { new (.ofSeed 0) with memory := ⟨#[0x00, 0xee]⟩, registers.sp := 13 }
    machine.screen.size = Screen.standardSize ∧ machine.tick.answer = .error .outOfBounds := by
  intro machine
  have full : machine.screen.size = Screen.standardSize := Array.size_replicate
  have fetched : machine.memory.word? machine.registers.pc.toNat = some 0x00ee := by decide
  have faults : machine.Faults 0x00ee := .inl ⟨rfl, .inr (by decide)⟩
  exact ⟨full, (tick_outOfBounds_iff machine full).1.mpr ⟨rfl, .inr ⟨_, fetched, faults⟩⟩⟩

end ChipEight.Machine
