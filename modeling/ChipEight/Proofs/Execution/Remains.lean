/-
**What a failing word leaves behind.**

Nothing is taken back when a word fails. Every word is noted and counted first, and whatever its
instruction did before it went out of bounds stays:

* `Remains`: the ways to fail, and what remains of each;
* `perform_remains`: there are no other ways;
* `failures_remain`: the same of the execution of a word and of a tick. A tick that can not fetch a
  word changes nothing, so all ticks after it fail as it did.
-/

import ChipEight.Operation
import ChipEight.Proofs.Execution.Faults
import ChipEight.Proofs.Instruction.Reading

namespace ChipEight.Machine

/-- **What remains of a word that fails**, by the machine that noted it, the failure, and the machine
that is left. -/
inductive Remains (word : Word) (noted : Machine) : Failure → Machine → Prop
  /-- An unknown word does nothing. -/
  | unknown : Remains word noted (.refused (.unknownWord word)) noted
  /-- A call with a full stack does nothing. -/
  | call (family : word.family = 0x2) : Remains word noted .outOfBounds noted
  /-- A return without a return address has lowered the pointer. -/
  | returnFromCall (itself : word = 0x00ee) : Remains word noted .outOfBounds { noted with
      registers := { noted.registers with sp := noted.registers.sp - 1 } }
  /-- A block of registers that does not fit is neither stored nor loaded, and not passed either. -/
  | block (itself : word.IsDevice 0x55 ∨ word.IsDevice 0x65) : Remains word noted .outOfBounds noted
  /-- Of the digits, the hundreds and the tens are stored as far as memory reaches. -/
  | digits (itself : word.IsDevice 0x33) (memory : Memory)
      (stored : ∀ address, memory.byte? address = (noted.memory.byte? address).map fun byte =>
        if address = noted.registers.index.toNat then UInt8.ofNat (noted.value word.x / 100)
        else if address = noted.registers.index.toNat + 1 then
          UInt8.ofNat (noted.value word.x / 10 % 10)
        else byte) :
      Remains word noted .outOfBounds { noted with memory }
  /-- Of a sprite, those rows are drawn that memory holds. -/
  | rows (family : word.family = 0xd) (drawn : Machine)
      (drawing : noted.draw word.x word.y (noted.memory.size - noted.registers.index.toNat) =
        .done () drawn) :
      Remains word noted .outOfBounds drawn

variable {machine noted after : Machine} {word : Word} {failure : Failure}

/-- A word that fails leaves the control unit as it is after noting the word. -/
theorem Remains.control (remains : Remains word noted failure after) :
    after.control = noted.control := by
  cases remains with
  | rows family drawn drawing =>
    obtain ⟨_, _, -, drew⟩ := draw_eq noted word.x word.y
      (noted.memory.size - noted.registers.index.toNat)
    rw [drawing] at drew
    cases drew
    rfl
  | _ => rfl

/-! ### The longer instructions -/

/-- A sprite that memory does not hold whole is drawn like the one that it holds. -/
theorem draw_of_outOfBounds {x y : Fin 16} {height : Nat}
    (full : machine.screen.size = Screen.standardSize)
    (faulted : (machine.draw x y height).answer = .error .outOfBounds) :
    machine.draw x y (machine.memory.size - machine.registers.index.toNat) =
      .done () (machine.draw x y height).machine := by
  obtain ⟨-, past⟩ := (draw_outOfBounds_iff machine x y height full).mp faulted
  have rows : machine.memory.available machine.registers.index.toNat height =
      machine.memory.available machine.registers.index.toNat
        (machine.memory.size - machine.registers.index.toNat) :=
    machine.memory.available_of_end (by omega)
  have complete := machine.screen.flipAll_complete (Sprite.targets machine.variant.wrapSprites
    (machine.get x).toNat (machine.get y).toNat (machine.memory.available
      machine.registers.index.toNat (machine.memory.size - machine.registers.index.toNat)))
    (by rw [full]; exact Sprite.targets_lt _ _ _ _)
  unfold draw
  simp only [rows, complete, Memory.length_available, Bool.true_and]
  rw [if_pos (by simp)]
  split <;> rfl

theorem draw_failure {x y : Fin 16} {height : Nat}
    (failed : (machine.draw x y height).answer = .error failure) : failure = .outOfBounds :=
  (Outcome.fault_of_ite failed rfl).2.1

/-- Digits that do not all fit: the last one is not stored. -/
theorem byte?_overlay_digits {memory : Memory} {start hundreds tens ones : Nat}
    (short : memory.size ≤ start + 2) (address : Nat) :
    (memory.overlay start ([hundreds, tens, ones].map UInt8.ofNat)).byte? address =
      (memory.byte? address).map fun byte =>
        if address = start then UInt8.ofNat hundreds
        else if address = start + 1 then UInt8.ofNat tens else byte := by
  rw [Memory.byte?_overlay]
  by_cases held : address < memory.size
  · refine congrArg (Option.map · _) (funext fun byte => ?_)
    rcases Nat.lt_trichotomy address start with below | rfl | above
    · rw [if_neg (by omega), if_neg (by omega), if_neg (by omega)]
    · simp
    · obtain rfl : address = start + 1 := by omega
      simp
  · rw [(memory.byte?_eq_none_iff address).mpr (by omega), Option.map_none, Option.map_none]

/-! ### Words -/

/-- **A word that fails leaves one of the listed remains.** -/
theorem perform_remains (full : noted.screen.size = Screen.standardSize)
    (failed : (noted.perform word).answer = .error failure) :
    Remains word noted failure (noted.perform word).machine := by
  rcases noted.perform_cases word with
    ⟨instruction, reads, performed⟩ | ⟨-, -, performed⟩ | ⟨-, performed⟩
  · rw [performed] at failed ⊢
    cases reads with
    | returnFromCall itself =>
      simp only [Instruction.meaning] at failed ⊢
      split at failed <;> rename_i slot
      · cases failed
      · rw [dif_neg slot]
        cases failed
        exact .returnFromCall itself
    | call family =>
      obtain ⟨-, rfl, left⟩ := Outcome.fault_of_ite failed rfl
      rw [left]
      exact .call family
    | draw family =>
      have low := word.n_lt
      rw [← draw_meaning noted word.x word.y (by omega)] at failed ⊢
      obtain rfl := draw_failure failed
      exact .rows family _ (draw_of_outOfBounds full failed)
    | storeDigits itself =>
      obtain ⟨short, rfl, left⟩ := Outcome.fault_of_ite failed rfl
      rw [left]
      exact .digits itself _ (byte?_overlay_digits (by omega))
    | storeRegisters itself =>
      obtain ⟨-, rfl, left⟩ := Outcome.fault_of_ite failed rfl
      rw [left]
      exact .block (.inl itself)
    | loadRegisters itself =>
      obtain ⟨-, rfl, left⟩ := Outcome.fault_of_ite failed rfl
      rw [left]
      exact .block (.inr itself)
    | _ => cases failed
  · rw [performed] at failed
    cases failed
  · rw [performed] at failed ⊢
    cases failed
    exact .unknown

/-! ### Ticks -/

/-- A tick that can not fetch a word is followed by others like it, however often it is repeated. -/
theorem performAll_unfetched (running : machine.isWaiting = false) (unfetched : machine.fetch? = none)
    (count : Nat) :
    machine.performAll (List.replicate count .tick) =
      ⟨List.replicate count (.error .outOfBounds, []), machine⟩ := by
  induction count with
  | zero => rfl
  | succ count ih =>
    have faulted : Operation.perform machine .tick = .outOfBounds machine := by
      show machine.tick.plain = _
      rw [tick_unfetched running unfetched]
      rfl
    simp only [List.replicate_succ, performAll, faulted, Outcome.outOfBounds_machine, ih]
    rfl

/-- **What failures leave behind.** A word that is executed and fails is noted and counted, and leaves
the remains of its instruction. The same holds of a tick, with the counter behind the word; a tick
that can not fetch a word changes nothing, and neither do the ticks that follow it. -/
theorem failures_remain (machine : Machine) (full : machine.screen.size = Screen.standardSize) :
    (∀ word failure, (machine.execute word).answer = .error failure →
      (machine.execute word).machine.control =
          { machine.control with lastWord := word, cycles := machine.control.cycles + 1 } ∧
        Remains word (machine.note word) failure (machine.execute word).machine) ∧
    ∀ failure, machine.tick.answer = .error failure →
      (∃ word, machine.memory.word? machine.registers.pc.toNat = some word ∧
        machine.tick.machine.control =
          { machine.control with lastWord := word, cycles := machine.control.cycles + 1 } ∧
        Remains word ((machine.mapRegisters (·.skip)).note word) failure machine.tick.machine) ∨
      (machine.memory.size ≤ machine.registers.pc.toNat + 1 ∧ failure = .outOfBounds ∧
        machine.tick.machine = machine ∧
        ∀ count, machine.performAll (List.replicate count .tick) =
          ⟨List.replicate count (.error .outOfBounds, []), machine⟩) := by
  constructor
  · intro word failure failed
    have remains : Remains word (machine.note word) failure (machine.execute word).machine :=
      perform_remains full failed
    exact ⟨remains.control, remains⟩
  · intro failure failed
    have running : machine.isWaiting = false := by
      by_contra waiting
      rw [tick_waiting_answer (Bool.not_eq_false _ ▸ waiting)] at failed
      cases failed
    cases found : machine.fetch? with
    | none =>
      have unfetched := tick_unfetched running found
      rw [unfetched] at failed ⊢
      cases failed
      exact .inr ⟨fetch?_eq_none_iff.mp found, rfl, rfl, performAll_unfetched running found⟩
    | some pair =>
      obtain ⟨word, fetched⟩ := pair
      obtain ⟨read, rfl⟩ := fetch?_eq_some_iff.mp found
      rw [tick_answer running found] at failed
      rw [tick_machine running found]
      have remains : Remains word ((machine.mapRegisters (·.skip)).note word) failure
          ((machine.mapRegisters (·.skip)).execute word).machine :=
        perform_remains full failed
      exact .inl ⟨word, read, remains.control, remains⟩

/-- Three digits at the last byte of memory: the hundreds are stored. -/
theorem failures_remain_digits :
    let machine : Machine := { new (.ofSeed 0) with
      memory := ⟨#[0xf0, 0x33]⟩
      registers := { Registers.blank with v := Vector.replicate 16 255, index := 1 } }
    machine.tick.answer = .error .outOfBounds ∧
      machine.tick.machine.memory.byte? 0 = some 0xf0 ∧
      machine.tick.machine.memory.byte? 1 = some 2 ∧
      machine.tick.machine.registers = { machine.registers with pc := 2 } := by
  intro machine
  have full : machine.screen.size = Screen.standardSize := Array.size_replicate
  have read : machine.memory.word? machine.registers.pc.toNat = some 0xf033 := by decide
  have family : Word.family 0xf033 = 0xf := by decide
  have faulted : machine.tick.answer = .error .outOfBounds := by
    rw [tick_answer rfl (fetch?_eq_some_iff.mpr ⟨read, rfl⟩)]
    refine (perform_outOfBounds_iff _ _ full).mpr (.inr (.inr (.inr (.inl ⟨family, ?_⟩))))
    decide
  refine ⟨faulted, ?_⟩
  rcases (failures_remain machine full).2 _ faulted with ⟨word, same, -, remains⟩ | ⟨unread, -⟩
  · obtain rfl : 0xf033 = word := Option.some.inj (read.symm.trans same)
    generalize machine.tick.machine = after at remains
    cases remains with
    | digits itself memory stored =>
      exact ⟨(stored 0).trans (by decide), (stored 1).trans (by decide), rfl⟩
    | returnFromCall itself => exact absurd itself (by decide)
    | call other => cases family.symm.trans other
    | rows other => cases family.symm.trans other
    | block itself => rcases itself with ⟨-, byte⟩ | ⟨-, byte⟩ <;> exact absurd byte (by decide)
  · exact absurd unread (by decide)

end ChipEight.Machine
