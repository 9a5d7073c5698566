/-
**Loading.**

A load copies a payload to the start of a region, or fails and changes nothing:
`load_of_long`, `load_of_short` and `load_of_room` are its three ends, and a load that succeeds is
an overlay. So is the clearing of everything behind an address (`clearFrom_eq_overlay`).

A program is loaded in four steps, of which only the first can fail: once the program is in memory,
so much memory lies before it that the font fits. `loadProgram_all_or_nothing` states when a program
is loaded, and every byte of memory afterwards.
-/

import Mathlib.Tactic.Common
import ChipEight.Machine.Host
import ChipEight.Proofs.Overlay

namespace ChipEight

namespace Memory

variable {memory : Memory} {region : Region} {payload : Array UInt8}

/-! ### Regions -/

theorem load_of_long (long : region.capacity ≤ payload.size) :
    memory.load region payload =
      .error (.refused (.payloadTooLong region payload.size region.capacity)) :=
  if_pos long

theorem load_of_short (fits : payload.size < region.capacity)
    (short : memory.size < region.start + payload.size) :
    memory.load region payload = .error .outOfBounds := by
  rw [load, if_neg (Nat.not_le.mpr fits), (splice?_eq_none_iff _ _ _).mpr short]

theorem load_of_room (fits : payload.size < region.capacity)
    (room : region.start + payload.size ≤ memory.size) :
    memory.load region payload = .ok (memory.overlay region.start payload.toList) := by
  rw [load, if_neg (Nat.not_le.mpr fits), splice?_eq_overlay, if_pos room]

/-- A load fails or is an overlay. -/
theorem load_cases (memory : Memory) (region : Region) (payload : Array UInt8) :
    (∃ failure, memory.load region payload = .error failure) ∨
      memory.load region payload = .ok (memory.overlay region.start payload.toList) := by
  rcases Nat.lt_or_ge payload.size region.capacity with fits | long
  · rcases Nat.lt_or_ge memory.size (region.start + payload.size) with short | room
    · exact .inl ⟨_, load_of_short fits short⟩
    · exact .inr (load_of_room fits room)
  · exact .inl ⟨_, load_of_long long⟩

/-! ### Clearing -/

/-- **Clearing everything behind an address** lays zeros over it. -/
theorem clearFrom_eq_overlay (memory : Memory) (start : Nat) (inside : start ≤ memory.size) :
    memory.clearFrom start = memory.overlay start (List.replicate (memory.size - start) 0) := by
  refine ext_byte? fun address => ?_
  unfold size at inside
  have before : (memory.bytes.extract 0 start).size = start := by
    rw [Array.size_extract]
    omega
  rcases Nat.lt_or_ge address start with below | above
  · rw [byte?_overlay_outside _ _ (.inl below), byte?, clearFrom,
      Array.getElem?_append_left (by omega), Array.getElem?_extract, if_pos (by omega),
      Nat.zero_add, byte?]
  · obtain ⟨offset, rfl⟩ := Nat.exists_eq_add_of_le above
    rw [byte?, clearFrom, Array.getElem?_append_right (by omega), before, Nat.add_sub_cancel_left,
      Array.getElem?_replicate]
    split
    · rename_i held
      rw [byte?_overlay_inside _ _ (by simpa) (by omega), List.getElem?_replicate, if_pos held]
    · rename_i past
      refine ((byte?_eq_none_iff _ _).mpr ?_).symm
      rw [size_overlay]
      omega

/-! ### Programs -/

/-- Memory with a program in it: the program, zeros up to the end, and the font. -/
def withProgram (memory : Memory) (program : Array UInt8) : Memory :=
  let behind := Region.program.start + program.size
  ((memory.overlay Region.program.start program.toList).overlay behind
    (List.replicate (memory.size - behind) 0)).overlay Region.charset.start Font.bytes.toList

theorem size_withProgram (memory : Memory) (program : Array UInt8) :
    (memory.withProgram program).size = memory.size := by
  rw [withProgram, size_overlay, size_overlay, size_overlay]

theorem length_font : Font.bytes.toList.length = 80 := rfl

/-- **Every byte of memory with a program in it.** -/
theorem byte?_withProgram (memory : Memory) {program : Array UInt8}
    (room : 0x200 + program.size ≤ memory.size) (address : Nat) :
    (memory.withProgram program).byte? address =
      if address < 80 then Font.bytes[address]?
      else if address < 0x200 then memory.byte? address
      else if address < 0x200 + program.size then program[address - 0x200]?
      else if address < memory.size then some 0
      else none := by
  have zeros : (List.replicate (memory.size - (0x200 + program.size)) (0 : UInt8)).length =
      memory.size - (0x200 + program.size) := List.length_replicate
  show (((memory.overlay 0x200 program.toList).overlay (0x200 + program.size) (List.replicate
    (memory.size - (0x200 + program.size)) 0)).overlay 0 Font.bytes.toList).byte? _ = _
  split
  · rename_i inFont
    have given : address < Font.bytes.toList.length := inFont
    rw [← Array.getElem?_toList, ← byte?_overlay_inside _ 0 given, Nat.zero_add]
    rw [size_overlay, size_overlay]
    omega
  · rename_i behindFont
    rw [byte?_overlay_outside _ _ (.inr (by rw [length_font]; omega))]
    split
    · rw [byte?_overlay_outside _ _ (.inl (by omega)), byte?_overlay_outside _ _ (.inl (by omega))]
    · split
      · rw [byte?_overlay_outside _ _ (.inl (by omega))]
        obtain ⟨place, rfl⟩ := Nat.exists_eq_add_of_le (show 0x200 ≤ address by omega)
        rw [byte?_overlay_inside _ _ (by simp; omega) (by omega), Array.getElem?_toList,
          Nat.add_sub_cancel_left]
      · split
        · obtain ⟨place, rfl⟩ :=
            Nat.exists_eq_add_of_le (show 0x200 + program.size ≤ address by omega)
          rw [byte?_overlay_inside _ _ (by omega) (by rw [size_overlay]; omega),
            List.getElem?_replicate, if_pos (by omega)]
        · rw [byte?_eq_none_iff, size_overlay, size_overlay]
          omega

/-- From the program on, the bytes do not depend on what memory held before. -/
theorem withProgram_congr {memory other : Memory} {program : Array UInt8}
    (room : 0x200 + program.size ≤ memory.size) (same : memory.size = other.size) {address : Nat}
    (above : 0x200 ≤ address) :
    (memory.withProgram program).byte? address = (other.withProgram program).byte? address := by
  rw [byte?_withProgram _ room, byte?_withProgram _ (same ▸ room), same]
  simp only [show ¬ address < 80 by omega, show ¬ address < 0x200 by omega, if_false]

end Memory

namespace Machine

variable {machine : Machine} {program : Array UInt8}

/-! ### Programs -/

theorem loadProgram_of_long (long : 3584 ≤ program.size) :
    machine.loadProgram program =
      .refused (.payloadTooLong .program program.size 3584) machine := by
  have refused : machine.memory.load .program program =
      .error (.refused (.payloadTooLong .program program.size 3584)) := Memory.load_of_long long
  rw [loadProgram, refused]
  rfl

theorem loadProgram_of_short (fits : program.size < 3584)
    (short : machine.memory.size < 0x200 + program.size) :
    machine.loadProgram program = .outOfBounds machine := by
  have outside : machine.memory.load .program program = .error .outOfBounds :=
    Memory.load_of_short fits short
  rw [loadProgram, outside]
  rfl

/-- **A program that is small enough for its region and for memory** is loaded. -/
theorem loadProgram_of_room (fits : program.size < 3584)
    (room : 0x200 + program.size ≤ machine.memory.size) :
    machine.loadProgram program = .done () { machine with
      memory := machine.memory.withProgram program
      registers.pc := 0x200
      loaded := true } := by
  have first : machine.memory.load .program program =
      .ok (machine.memory.overlay Region.program.start program.toList) :=
    Memory.load_of_room fits room
  have size := machine.memory.size_overlay Region.program.start program.toList
  have cleared := (machine.memory.overlay Region.program.start program.toList).clearFrom_eq_overlay
    (Region.program.start + program.size) (by rw [size]; exact room)
  rw [size] at cleared
  -- the font lies before the program, so memory that had room for the one has room for the other
  have last : ((machine.memory.overlay Region.program.start program.toList).clearFrom
      (Region.program.start + program.size)).load .charset Font.bytes =
        .ok (machine.memory.withProgram program) := by
    rw [cleared]
    refine Memory.load_of_room (by decide) ?_
    rw [Memory.size_overlay, size]
    show 80 ≤ _
    omega
  simp only [loadProgram, first, last]
  rfl

/-- **A program is loaded as a whole or not at all.** It is refused if it leaves no byte of its
region free, and goes out of bounds if memory is too short for it; then nothing has changed.
Otherwise memory holds the font, its own bytes up to the program, the program, and zeros; the
counter is at the program, and everything else is as before. -/
theorem loadProgram_all_or_nothing (machine : Machine) (program : Array UInt8) :
    let outcome := machine.loadProgram program
    let after := outcome.machine
    (outcome.answer = .error (.refused (.payloadTooLong .program program.size 3584)) ↔
        3584 ≤ program.size) ∧
      (outcome.answer = .error .outOfBounds ↔
        program.size < 3584 ∧ machine.memory.size < 0x200 + program.size) ∧
      (outcome.answer ≠ .ok () → after = machine) ∧
      (program.size < 3584 → 0x200 + program.size ≤ machine.memory.size →
        outcome.answer = .ok () ∧
        (∀ address, after.memory.byte? address =
          if address < 80 then Font.bytes[address]?
          else if address < 0x200 then machine.memory.byte? address
          else if address < 0x200 + program.size then program[address - 0x200]?
          else if address < machine.memory.size then some 0
          else none) ∧
        after = { machine with memory := after.memory, registers.pc := 0x200, loaded := true } ∧
        ∀ other : Machine, other.memory.size = machine.memory.size → ∀ address, 0x200 ≤ address →
          (other.loadProgram program).machine.memory.byte? address =
            after.memory.byte? address) := by
  intro outcome after
  rcases Nat.lt_or_ge program.size 3584 with fits | long
  · rcases Nat.lt_or_ge machine.memory.size (0x200 + program.size) with short | room
    · have loaded : outcome = _ := loadProgram_of_short fits short
      clear_value outcome
      subst loaded
      exact ⟨iff_of_false nofun (by omega), iff_of_true rfl ⟨fits, short⟩, fun _ => rfl,
        fun _ room => by omega⟩
    · have loaded : outcome = _ := loadProgram_of_room fits room
      clear_value outcome
      subst loaded
      refine ⟨iff_of_false nofun (by omega), iff_of_false nofun (by omega),
        fun failed => absurd rfl failed, fun _ _ => ⟨rfl, machine.memory.byte?_withProgram room, rfl,
        fun other same address above => ?_⟩⟩
      have otherRoom : 0x200 + program.size ≤ other.memory.size := by rwa [same]
      rw [loadProgram_of_room fits otherRoom]
      exact Memory.withProgram_congr otherRoom same above
  · have loaded : outcome = _ := loadProgram_of_long long
    clear_value outcome
    subst loaded
    exact ⟨iff_of_true rfl long, iff_of_false nofun (by omega), fun _ => rfl,
      fun fits => by omega⟩

/-- A program of three bytes in a memory that ends right behind it, and in one that ends before. -/
theorem loadProgram_all_or_nothing_tight :
    let program : Array UInt8 := #[0x12, 0x00, 0xff]
    let tight : Machine := { new (.ofSeed 0) with memory := ⟨Array.replicate 515 7⟩ }
    let short : Machine := { new (.ofSeed 0) with memory := ⟨Array.replicate 514 7⟩ }
    (tight.loadProgram program).machine.memory.byte? 0x202 = some 0xff ∧
      (tight.loadProgram program).machine.memory.byte? 0x203 = none ∧
      (tight.loadProgram program).machine.memory.byte? 80 = some 7 ∧
      (tight.loadProgram program).machine.memory.byte? 0 = some 0xf0 ∧
      (short.loadProgram program).answer = .error .outOfBounds ∧
      (short.loadProgram program).machine = short := by
  intro program tight short
  have tightSize : tight.memory.size = 515 := Array.size_replicate
  have shortSize : short.memory.size = 514 := Array.size_replicate
  obtain ⟨-, -, -, loads⟩ := loadProgram_all_or_nothing tight program
  obtain ⟨-, bytes, -, -⟩ := loads (by decide) (by rw [tightSize]; decide)
  obtain ⟨-, faults, nothing, -⟩ := loadProgram_all_or_nothing short program
  have faulted := faults.mpr ⟨by decide, by rw [shortSize]; decide⟩
  refine ⟨(bytes _).trans rfl, (bytes _).trans ?_, (bytes _).trans ?_, (bytes _).trans rfl,
    faulted, ?_⟩
  · rw [tightSize]
    rfl
  · exact Array.getElem?_replicate
  · exact nothing (by rw [faulted]; nofun)

end Machine

end ChipEight
