/-
**The calls of a host.**

A host lets a machine tick, loads programs and fonts, presses and releases keys, sets byte
registers, lets the timers run down and resets the machine (`Operation.isHostCall`).

* `hostCall_machine`: what a call other than a tick or a reset can change;
* `hostCall_control`: only ticks and resets touch the control unit;
* `hostCall_log`: only ticks log anything;
* `execution_by_font`: a host can make a machine execute any word.
-/

import ChipEight.Proofs.Loading
import ChipEight.Proofs.Registers
import ChipEight.Proofs.Session.Basic

namespace ChipEight

/-- Whether an operation is a call of a host. -/
def Operation.isHostCall : Operation → Bool
  | tick | loadProgram _ | loadFont _ | press _ | release _ | setRegister _ _ | tickTimers
  | reset _ => true
  | _ => false

/-- Whether an operation is a call of a host that lets the machine go on: any but a reset. -/
def Operation.isOngoingCall : Operation → Bool
  | reset _ => false
  | operation => operation.isHostCall

theorem Operation.isHostCall_of_ongoing {operation : Operation}
    (call : operation.isOngoingCall = true) :
    operation.isHostCall = true ∧ ∀ source, operation ≠ .reset source := by
  cases operation with
  | reset source => cases call
  | _ => exact ⟨call, nofun⟩

namespace Machine

variable (machine : Machine)

/-! ### Loads -/

/-- A load of a program changes memory, and moves the counter if it succeeds. -/
theorem loadProgram_machine (program : Array UInt8) :
    ∃ memory, memory.size = machine.memory.size ∧
      ((machine.loadProgram program).machine = { machine with memory } ∨
        (machine.loadProgram program).machine =
          { machine with
            memory
            registers.pc := UInt16.ofNat Region.program.start
            loaded := true }) := by
  rcases Nat.lt_or_ge program.size 3584 with fits | long
  · rcases Nat.lt_or_ge machine.memory.size (0x200 + program.size) with short | room
    · exact ⟨machine.memory, rfl, .inl (by rw [loadProgram_of_short fits short]; rfl)⟩
    · exact ⟨machine.memory.withProgram program, Memory.size_withProgram _ _,
        .inr (by rw [loadProgram_of_room fits room]; rfl)⟩
  · exact ⟨machine.memory, rfl, .inl (by rw [loadProgram_of_long long]; rfl)⟩

theorem loadRegion_machine (region : Region) (payload : Array UInt8) :
    ∃ memory, memory.size = machine.memory.size ∧
      (machine.loadRegion region payload).machine = { machine with memory } := by
  unfold loadRegion
  rcases machine.memory.load_cases region payload with ⟨failure, failed⟩ | loaded
  · exact ⟨machine.memory, rfl, by rw [failed]⟩
  · exact ⟨_, Memory.size_overlay _ _ _, by rw [loaded]; rfl⟩

theorem new_memory_size (source : RandomSource) : (new source).memory.size = Memory.standardSize :=
  Array.size_replicate

/-- A font of two bytes puts any word at the start of memory. -/
theorem loadFont_word (holds : Region.charset.stop ≤ machine.memory.size) (high low : UInt8) :
    ∃ memory, memory.size = machine.memory.size ∧
      memory.word? 0 = some (Word.ofBytes high low) ∧
      (machine.loadFont #[high, low]).machine = { machine with memory } := by
  have large : 512 ≤ machine.memory.size := holds
  have loaded : machine.memory.load .charset #[high, low] =
      .ok (machine.memory.overlay 0 [high, low]) :=
    Memory.load_of_room (show 2 < 512 by decide) (show 2 ≤ _ by omega)
  have first := machine.memory.byte?_overlay_inside 0 (show 0 < [high, low].length by simp)
    (by omega)
  have second := machine.memory.byte?_overlay_inside 0 (show 1 < [high, low].length by simp)
    (by omega)
  refine ⟨_, machine.memory.size_overlay 0 [high, low], ?_, ?_⟩
  · unfold Memory.word?
    rw [first, second]
    rfl
  · unfold loadFont loadRegion
    rw [loaded]
    rfl

/-- A machine at the start of its memory can execute any word, by a font and a tick. -/
theorem execution_by_font (running : machine.isWaiting = false) (start : machine.registers.pc = 0)
    (holds : Region.charset.stop ≤ machine.memory.size) (high low : UInt8) :
    ∃ memory, memory.size = machine.memory.size ∧
      Operation.execution? (machine.after [.loadFont #[high, low]]) .tick =
        some (Word.ofBytes high low, mapRegisters { machine with memory } (·.skip)) := by
  obtain ⟨memory, size, first, loaded⟩ := loadFont_word machine holds high low
  have left : machine.after [.loadFont #[high, low]] = { machine with memory } := loaded
  refine ⟨memory, size, ?_⟩
  rw [left, Operation.execution_tick_iff]
  refine ⟨running, fetch?_eq_some_iff.mpr ⟨?_, rfl⟩⟩
  show memory.word? machine.registers.pc.toNat = _
  rw [start]
  exact first

/-! ### Keys and registers -/

theorem setKey_machine (key : Nat) (down : Bool) :
    ∃ keys, (machine.setKey key down).machine =
      machine.mapRegisters fun registers => { registers with keys } := by
  unfold setKey
  split
  · exact ⟨_, rfl⟩
  · exact ⟨machine.registers.keys, rfl⟩

theorem setRegister_machine (register : Nat) (value : UInt8) :
    ∃ v, (machine.setRegister register value).machine =
      machine.mapRegisters fun registers => { registers with v } := by
  unfold setRegister
  split
  · exact ⟨_, rfl⟩
  · exact ⟨machine.registers.v, rfl⟩

/-! ### All calls -/

/-- **What a host call can change**, apart from ticks and resets: memory without its size, the
registers without the stack, and whether a program is loaded. The counter stays, or moves to the
start of a program. -/
theorem hostCall_machine {operation : Operation} (call : operation.isHostCall = true)
    (noTick : operation ≠ .tick) (noReset : ∀ source, operation ≠ .reset source) :
    ∃ memory registers loaded, memory.size = machine.memory.size ∧
      registers.stackState = machine.registers.stackState ∧
      (registers.pc = machine.registers.pc ∨
        registers.pc = UInt16.ofNat Region.program.start) ∧
      (operation.perform machine).machine = { machine with memory, registers, loaded } := by
  cases operation with
  | tick => exact absurd rfl noTick
  | reset source => exact absurd rfl (noReset source)
  | loadProgram program =>
    obtain ⟨memory, size, left | left⟩ := loadProgram_machine machine program
    · exact ⟨memory, machine.registers, machine.loaded, size, rfl, .inl rfl, left⟩
    · exact ⟨memory, { machine.registers with pc := UInt16.ofNat Region.program.start }, true, size,
        rfl, .inr rfl, left⟩
  | loadFont font =>
    obtain ⟨memory, size, left⟩ := loadRegion_machine machine .charset font
    exact ⟨memory, machine.registers, machine.loaded, size, rfl, .inl rfl, left⟩
  | press key =>
    obtain ⟨keys, left⟩ := setKey_machine machine key true
    exact ⟨machine.memory, { machine.registers with keys }, machine.loaded, rfl, rfl, .inl rfl, left⟩
  | release key =>
    obtain ⟨keys, left⟩ := setKey_machine machine key false
    exact ⟨machine.memory, { machine.registers with keys }, machine.loaded, rfl, rfl, .inl rfl, left⟩
  | setRegister register value =>
    obtain ⟨v, left⟩ := setRegister_machine machine register value
    exact ⟨machine.memory, { machine.registers with v }, machine.loaded, rfl, rfl, .inl rfl, left⟩
  | tickTimers =>
    exact ⟨machine.memory, machine.registers.tickTimers, machine.loaded, rfl, rfl, .inl rfl, rfl⟩
  | _ => cases call

/-- A host reaches the control unit by a tick or a reset only, and a reset ends a wait. -/
theorem hostCall_control {operation : Operation} (call : operation.isHostCall = true)
    (noTick : operation ≠ .tick) :
    (operation.perform machine).machine.control = machine.control ∨
      (operation.perform machine).machine.isWaiting = false := by
  by_cases isReset : ∃ source, operation = .reset source
  · obtain ⟨source, rfl⟩ := isReset
    exact .inr rfl
  · obtain ⟨memory, registers, loaded, -, -, -, left⟩ :=
      hostCall_machine machine call noTick fun source reset => isReset ⟨source, reset⟩
    rw [left]
    exact .inl rfl

/-- **Only ticks log anything.** -/
theorem hostCall_log {operation : Operation} (call : operation.isHostCall = true)
    (noTick : operation ≠ .tick) : (operation.perform machine).log = [] := by
  cases operation with
  | tick => exact absurd rfl noTick
  | loadProgram program =>
    show (machine.loadProgram program).log = []
    unfold loadProgram
    split
    · rfl
    · simp only
      split <;> rfl
  | loadFont font =>
    show (machine.loadRegion .charset font).log = []
    unfold loadRegion
    split <;> rfl
  | press key | release key =>
    show (machine.setKey key _).log = []
    unfold setKey
    split <;> rfl
  | setRegister register value =>
    show (machine.setRegister register value).log = []
    unfold setRegister
    split <;> rfl
  | tickTimers | reset => rfl
  | _ => cases call

end Machine

end ChipEight
