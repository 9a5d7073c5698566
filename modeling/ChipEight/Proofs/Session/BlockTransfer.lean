/-
**Blocks of registers, one behind the other.**

Under a variant that moves the index register behind a block, every block begins where the one
before it ended. So stores write a stream, and loads read it:

* `execute_store`, `execute_load`: a single transfer, and `Passes` what every transfer keeps;
* `stores_block`, `stores_all`: what stores leave is the overlay of all their bytes, since the
  overlays of neighbours are one (`Stores.trans`);
* `loads_block`, `loads_all`: a load takes the bytes at the index register, and only passes over
  them;
* `blocks_stream`: stores, the loads that follow them, and transfers under the other variant.
-/

import ChipEight.Proofs.Instruction.Reading
import ChipEight.Proofs.Overlay
import ChipEight.Proofs.Session.Basic

namespace ChipEight

/-! ### Blocks -/

/-- A register file, and the last register of it that is transferred. -/
structure Block where
  file : Vector UInt8 16
  last : Fin 16

namespace Block

/-- The number of registers that are transferred. -/
def length (block : Block) : Nat :=
  block.last + 1

/-- The registers that are transferred. -/
def bytes (block : Block) : List UInt8 :=
  block.file.toList.take block.length

/-- The word that stores a block. -/
def storeWord (block : Block) : Word :=
  .withByte 0xf block.last 0x55

/-- The word that loads a block. -/
def loadWord (block : Block) : Word :=
  .withByte 0xf block.last 0x65

/-- Stores blocks, each from its own register file. -/
def storeAll (blocks : List Block) : List Operation :=
  blocks.flatMap fun block => [.setBytes block.file, .execute block.storeWord]

/-- Loads blocks. -/
def loadAll (blocks : List Block) : List Operation :=
  blocks.map fun block => .execute block.loadWord

/-- The number of bytes in several blocks. -/
def total : List Block → Nat
  | [] => 0
  | block :: rest => block.length + total rest

/-- The bytes of several blocks. -/
def stream (blocks : List Block) : List UInt8 :=
  blocks.flatMap bytes

variable (block : Block)

theorem length_le : block.length ≤ 16 :=
  block.last.isLt

@[simp]
theorem length_bytes : block.bytes.length = block.length := by
  have few := block.length_le
  simp only [bytes, List.length_take, Vector.length_toList]
  omega

theorem bytes_getElem? {register : Fin 16} (inside : register ≤ block.last) :
    block.bytes[register.val]? = some (block.file.get register) := by
  have near : register.val < block.length := Nat.lt_succ_of_le inside
  rw [bytes, List.getElem?_take_of_lt near, Vector.getElem?_toList,
    Vector.getElem?_eq_getElem register.isLt]
  rfl

@[simp]
theorem total_cons (rest : List Block) : total (block :: rest) = block.length + total rest := rfl

@[simp]
theorem length_stream (blocks : List Block) : (stream blocks).length = total blocks := by
  induction blocks with
  | nil => rfl
  | cons block rest ih =>
    rw [total_cons, ← ih, ← block.length_bytes]
    exact List.length_append

@[simp]
theorem total_append (first second : List Block) :
    total (first ++ second) = total first + total second := by
  simp only [← length_stream, stream, List.flatMap_append, List.length_append]

/-- Where a block stands in the stream. -/
theorem stream_getElem? (earlier rest : List Block) {place : Nat} (near : place < block.length) :
    (stream (earlier ++ block :: rest))[total earlier + place]? = block.bytes[place]? := by
  have split : stream (earlier ++ block :: rest) =
      stream earlier ++ (block.bytes ++ stream rest) := by
    simp only [stream, List.flatMap_append, List.flatMap_cons]
  rw [split, List.getElem?_append_right (by simp), length_stream, Nat.add_sub_cancel_left,
    List.getElem?_append_left (by simpa)]

theorem x_storeWord : block.storeWord.x = block.last := by
  rw [storeWord, Word.x_withByte (by decide), Fin.ofNat_val_eq_self]

theorem x_loadWord : block.loadWord.x = block.last := by
  rw [loadWord, Word.x_withByte (by decide), Fin.ofNat_val_eq_self]

theorem storeWord_isDevice : block.storeWord.IsDevice 0x55 :=
  ⟨Word.family_withByte (by decide) _ _, congrArg _ (Word.immediate_withByte (by decide) _ _)⟩

theorem loadWord_isDevice : block.loadWord.IsDevice 0x65 :=
  ⟨Word.family_withByte (by decide) _ _, congrArg _ (Word.immediate_withByte (by decide) _ _)⟩

end Block

namespace Machine

open Block

/-! ### Room and passing -/

/-- Whether a machine moves its index register behind a block and has room for some bytes there. -/
structure Room (machine : Machine) (count : Nat) : Prop where
  advances : machine.variant.advanceIndex = true
  inside : machine.registers.index.toNat + count ≤ machine.memory.size
  small : machine.memory.size < 0x10000

/-- What remains of transferring some bytes, in either direction. -/
structure Passes (count : Nat) (before after : Machine) : Prop where
  index : after.registers.index.toNat = before.registers.index.toNat + count
  size : after.memory.size = before.memory.size
  settings : after.control.settings = before.control.settings

variable {machine before between after : Machine} {word : Word} {count more : Nat}

theorem Passes.refl (machine : Machine) : Passes 0 machine machine :=
  ⟨rfl, rfl, rfl⟩

theorem Passes.trans (first : Passes count before between) (second : Passes more between after) :
    Passes (count + more) before after where
  index := by rw [second.index, first.index, Nat.add_assoc]
  size := second.size.trans first.size
  settings := second.settings.trans first.settings

/-- What was passed over is no longer ahead. -/
theorem Passes.room (passes : Passes count before after) (room : Room before (count + more)) :
    Room after more where
  advances := by
    unfold variant
    rw [passes.settings]
    exact room.advances
  inside := by
    have inside := room.inside
    rw [passes.index, passes.size]
    omega
  small := by
    rw [passes.size]
    exact room.small

/-- Back where the index register started, there is the same room again. -/
theorem Passes.back (passes : Passes count before after) (room : Room before more) :
    Room (after.after [.setIndex before.registers.index]) more where
  advances := by
    show after.control.settings.variant.advanceIndex = true
    rw [passes.settings]
    exact room.advances
  inside := by
    show before.registers.index.toNat + more ≤ after.memory.size
    rw [passes.size]
    exact room.inside
  small := by
    show after.memory.size < 0x10000
    rw [passes.size]
    exact room.small

theorem Room.shorter (room : Room machine (count + more)) : Room machine count :=
  ⟨room.advances, by have inside := room.inside; omega, room.small⟩

/-- With room for a block the index register does not run over. -/
theorem Room.indexBehind (room : Room machine count) :
    (machine.indexBehind count).toNat = machine.registers.index.toNat + count := by
  have inside := room.inside
  have small := room.small
  rw [Machine.indexBehind, if_pos room.advances, UInt16.toNat_add, UInt16.toNat_ofNat']
  omega

/-! ### Single transfers -/

/-- **Storing a block** of which memory holds every byte. -/
theorem execute_store (machine : Machine) (itself : word.IsDevice 0x55)
    (inside : machine.registers.index.toNat + (word.x + 1) ≤ machine.memory.size) :
    machine.execute word = .done () { machine.note word with
      memory := machine.memory.overlay machine.registers.index.toNat
        (machine.registers.v.toList.take (word.x + 1))
      registers := { machine.registers with index := machine.indexBehind (word.x + 1) } } := by
  refine (perform_of_reads (.storeRegisters itself)).trans ?_
  simp only [Instruction.meaning, Nat.mod_eq_of_lt word.x.isLt]
  exact if_pos inside

/-- The byte registers after a load of the registers up to `x`. -/
def loadedFile (machine : Machine) (x : Fin 16) : Vector UInt8 16 :=
  Vector.ofFn fun register =>
    if register.val < x.val + 1 then
      (machine.memory.byte? (machine.registers.index.toNat + register)).getD 0
    else machine.get register

/-- **Loading a block** of which memory holds every byte. -/
theorem execute_load (machine : Machine) (itself : word.IsDevice 0x65)
    (inside : machine.registers.index.toNat + (word.x + 1) ≤ machine.memory.size) :
    machine.execute word = .done () { machine.note word with
      registers := { machine.registers with
        v := machine.loadedFile word.x
        index := machine.indexBehind (word.x + 1) } } := by
  refine (perform_of_reads (.loadRegisters itself)).trans ?_
  simp only [Instruction.meaning, Nat.mod_eq_of_lt word.x.isLt]
  exact if_pos inside

theorem loadedFile_low {x register : Fin 16} (near : register ≤ x)
    (inside : machine.registers.index.toNat + (x + 1) ≤ machine.memory.size) :
    some ((machine.loadedFile x).get register) =
      machine.memory.byte? (machine.registers.index.toNat + register) := by
  have given : register.val < x.val + 1 := Nat.lt_succ_of_le near
  obtain ⟨byte, held⟩ := machine.memory.exists_byte
    (show machine.registers.index.toNat + register < _ by omega)
  show some (machine.loadedFile x)[register.val] = _
  rw [loadedFile, Vector.getElem_ofFn, Fin.eta, if_pos given, held, Option.getD_some]

theorem loadedFile_high {x register : Fin 16} (far : register > x) :
    (machine.loadedFile x).get register = machine.get register := by
  show (machine.loadedFile x)[register.val] = _
  rw [loadedFile, Vector.getElem_ofFn, Fin.eta, if_neg (Nat.not_lt.mpr far)]

/-- A transfer that passes the end of memory does nothing. -/
theorem execute_outside (machine : Machine) (transfers : word.IsDevice 0x55 ∨ word.IsDevice 0x65)
    (outside : machine.memory.size < machine.registers.index.toNat + (word.x + 1)) :
    machine.execute word = .outOfBounds (machine.note word) := by
  rcases transfers with itself | itself
  · refine (perform_of_reads (.storeRegisters itself)).trans ?_
    simp only [Instruction.meaning, Nat.mod_eq_of_lt word.x.isLt]
    exact if_neg (Nat.not_le.mpr outside)
  · refine (perform_of_reads (.loadRegisters itself)).trans ?_
    simp only [Instruction.meaning, Nat.mod_eq_of_lt word.x.isLt]
    exact if_neg (Nat.not_le.mpr outside)

/-! ### Stores -/

/-- What remains of storing bytes at the index register. -/
structure Stores (bytes : List UInt8) (before after : Machine) : Prop where
  passes : Passes bytes.length before after
  memory : after.memory = before.memory.overlay before.registers.index.toNat bytes

/-- **Two stores in a row are one.** -/
theorem Stores.trans {bytes others : List UInt8} (first : Stores bytes before between)
    (second : Stores others between after) : Stores (bytes ++ others) before after where
  passes := by
    rw [List.length_append]
    exact first.passes.trans second.passes
  memory := by rw [second.memory, first.memory, first.passes.index, Memory.overlay_append]

/-- One block, from its register file. -/
theorem stores_block (block : Block) (room : machine.Room block.length) :
    machine.Quiet [.setBytes block.file, .execute block.storeWord] ∧
      Stores block.bytes machine
        (machine.after [.setBytes block.file, .execute block.storeWord]) := by
  let filled := machine.after [.setBytes block.file]
  have filledRoom : filled.Room block.length := ⟨room.advances, room.inside, room.small⟩
  have executed := execute_store filled block.storeWord_isDevice
    (by rw [block.x_storeWord]; exact room.inside)
  rw [block.x_storeWord] at executed
  obtain ⟨quiet, left⟩ := quiet_execute executed
  have fills : machine.Quiet [.setBytes block.file] := rfl
  have behind : machine.after [.setBytes block.file, .execute block.storeWord] =
      filled.after [.execute block.storeWord] := rfl
  rw [behind, left]
  refine ⟨fills.append quiet, ⟨?_, Memory.size_overlay .., rfl⟩, rfl⟩
  rw [block.length_bytes]
  exact filledRoom.indexBehind

/-- **Blocks that are stored one after the other form a stream.** -/
theorem stores_all (blocks : List Block) (room : machine.Room (total blocks)) :
    machine.Quiet (storeAll blocks) ∧
      Stores (stream blocks) machine (machine.after (storeAll blocks)) := by
  induction blocks generalizing machine with
  | nil => exact ⟨rfl, Passes.refl machine, (machine.memory.overlay_nil _).symm⟩
  | cons block rest ih =>
    rw [total_cons] at room
    obtain ⟨quiet, stored⟩ := stores_block block room.shorter
    -- the first block leaves the index register where the others begin, with room for them
    have passes := stored.passes
    rw [length_bytes] at passes
    obtain ⟨restQuiet, restStored⟩ := ih (passes.room room)
    refine ⟨quiet.append restQuiet, ?_⟩
    have split : storeAll (block :: rest) =
        [.setBytes block.file, .execute block.storeWord] ++ storeAll rest := rfl
    rw [split, after_append]
    exact stored.trans restStored

/-! ### Loads -/

/-- What remains of loading, the byte registers apart. -/
structure Loads (count : Nat) (before after : Machine) : Prop where
  passes : Passes count before after
  memory : after.memory = before.memory

/-- One block, of which the bytes at the index register become the first registers. -/
theorem loads_block (block : Block) (room : machine.Room block.length) :
    machine.Quiet [.execute block.loadWord] ∧
      Loads block.length machine (machine.after [.execute block.loadWord]) ∧
      (∀ register ≤ block.last,
        some ((machine.after [.execute block.loadWord]).get register) =
          machine.memory.byte? (machine.registers.index.toNat + register)) ∧
      ∀ register > block.last,
        (machine.after [.execute block.loadWord]).get register = machine.get register := by
  have executed := execute_load machine block.loadWord_isDevice
    (by rw [block.x_loadWord]; exact room.inside)
  rw [block.x_loadWord] at executed
  obtain ⟨quiet, left⟩ := quiet_execute executed
  rw [left]
  exact ⟨quiet, ⟨⟨room.indexBehind, rfl, rfl⟩, rfl⟩,
    fun _ near => loadedFile_low near room.inside, fun _ far => loadedFile_high far⟩

/-- **Loads pass over the blocks one after the other.** -/
theorem loads_all (blocks : List Block) (room : machine.Room (total blocks)) :
    machine.Quiet (loadAll blocks) ∧
      Loads (total blocks) machine (machine.after (loadAll blocks)) := by
  induction blocks generalizing machine with
  | nil => exact ⟨rfl, Passes.refl machine, rfl⟩
  | cons block rest ih =>
    rw [total_cons] at room ⊢
    obtain ⟨quiet, loaded, -⟩ := loads_block block room.shorter
    obtain ⟨restQuiet, restLoaded⟩ := ih (loaded.passes.room room)
    refine ⟨quiet.append restQuiet, ?_⟩
    have split : loadAll (block :: rest) = [.execute block.loadWord] ++ loadAll rest := rfl
    rw [split, after_append]
    exact ⟨loaded.passes.trans restLoaded.passes, restLoaded.memory.trans loaded.memory⟩

/-- **A block of a stream comes back**: when the blocks before it have been loaded, the index
register points at its bytes. -/
theorem loads_of_stream {earlier later : List Block} {block : Block}
    (room : machine.Room (total (earlier ++ block :: later)))
    (held : ∀ place < total (earlier ++ block :: later),
      machine.memory.byte? (machine.registers.index.toNat + place) =
        (stream (earlier ++ block :: later))[place]?) :
    let before := machine.after (loadAll earlier)
    let after := before.after [.execute block.loadWord]
    (∀ register ≤ block.last, after.get register = block.file.get register) ∧
      (∀ register > block.last, after.get register = before.get register) ∧
      Loads (total (earlier ++ [block])) machine after := by
  intro before after
  rw [total_append] at room
  obtain ⟨-, loaded⟩ := loads_all earlier room.shorter
  have ahead := loaded.passes.room room
  rw [total_cons] at ahead
  obtain ⟨-, last, low, high⟩ := loads_block block ahead.shorter
  refine ⟨fun register near => ?_, high, ⟨?_, last.memory.trans loaded.memory⟩⟩
  · have given : register.val < block.length := Nat.lt_succ_of_le near
    have found : some (after.get register) = some (block.file.get register) := by
      rw [low register near, loaded.memory, loaded.passes.index, Nat.add_assoc,
        held _ (by simp only [total_append, total_cons]; omega), block.stream_getElem? _ _ given,
        block.bytes_getElem? near]
    exact Option.some.inj found
  · rw [total_append]
    exact loaded.passes.trans last.passes

/-! ### Streams -/

/-- The machine that moves its index register behind a block, or does not. -/
def withAdvance (machine : Machine) (advances : Bool) : Machine :=
  { machine with control.settings.variant.advanceIndex := advances }

/-- **The variants differ in the index register only.** -/
theorem transfer_resting (machine : Machine)
    (transfers : word.IsDevice 0x55 ∨ word.IsDevice 0x65) :
    let moving := (machine.withAdvance true).execute word
    let resting := (machine.withAdvance false).execute word
    resting.answer = moving.answer ∧ resting.log = moving.log ∧
      resting.machine = { moving.machine.withAdvance false with
        registers := { moving.machine.registers with index := machine.registers.index } } := by
  intro moving resting
  have stays : (machine.withAdvance false).indexBehind (word.x + 1) = machine.registers.index := rfl
  rcases Nat.lt_or_ge machine.memory.size (machine.registers.index.toNat + (word.x + 1)) with
    outside | inside
  · have moved : moving = _ := execute_outside (machine.withAdvance true) transfers outside
    have rested : resting = _ := execute_outside (machine.withAdvance false) transfers outside
    rw [moved, rested]
    exact ⟨rfl, rfl, rfl⟩
  rcases transfers with store | load
  · have moved : moving = _ := execute_store (machine.withAdvance true) store inside
    have rested : resting = _ := execute_store (machine.withAdvance false) store inside
    rw [moved, rested, stays]
    exact ⟨rfl, rfl, rfl⟩
  · have moved : moving = _ := execute_load (machine.withAdvance true) load inside
    have rested : resting = _ := execute_load (machine.withAdvance false) load inside
    rw [moved, rested, stays]
    refine ⟨rfl, rfl, ?_⟩
    rw [Outcome.done_machine, Outcome.done_machine]
    rfl

/-- **Blocks stream through memory, and come back.** If the variant moves the index register, stores
leave the bytes of all blocks one behind the other and nothing else, and the index register behind
them. From the same start, every load takes the registers of its block, leaves the higher ones, and
stops where the next block begins. Under the other variant a single transfer does the same, but
leaves the index register. -/
theorem blocks_stream (machine : Machine) :
    (machine.variant.advanceIndex = true → machine.memory.size < 0x10000 →
      ∀ (start : UInt16) (blocks : List Block),
        start.toNat + total blocks ≤ machine.memory.size →
        let storing := .setIndex start :: storeAll blocks
        let loading := .setIndex start :: loadAll blocks
        let stored := machine.after storing
        machine.Quiet storing ∧
        (∀ place < total blocks,
          stored.memory.byte? (start.toNat + place) = (stream blocks)[place]?) ∧
        (∀ address, address < start.toNat ∨ start.toNat + total blocks ≤ address →
          stored.memory.byte? address = machine.memory.byte? address) ∧
        stored.registers.index.toNat = start.toNat + total blocks ∧
        stored.Quiet loading ∧
        ∀ earlier block later, blocks = earlier ++ block :: later →
          let before := stored.after (.setIndex start :: loadAll earlier)
          let after := before.after [.execute block.loadWord]
          (∀ register ≤ block.last, after.get register = block.file.get register) ∧
          (∀ register > block.last, after.get register = before.get register) ∧
          after.memory = stored.memory ∧
          after.registers.index.toNat = start.toNat + total (earlier ++ [block])) ∧
    ∀ word : Word, word.IsDevice 0x55 ∨ word.IsDevice 0x65 →
      let moving := (machine.withAdvance true).execute word
      let resting := (machine.withAdvance false).execute word
      resting.answer = moving.answer ∧ resting.log = moving.log ∧
        resting.machine = { moving.machine.withAdvance false with
          registers := { moving.machine.registers with index := machine.registers.index } } := by
  refine ⟨fun advances small start blocks fits => ?_, fun word => transfer_resting machine⟩
  intro storing loading stored
  let placed := machine.after [.setIndex start]
  have placedRoom : placed.Room (total blocks) := ⟨advances, fits, small⟩
  obtain ⟨quiet, stores⟩ := stores_all blocks placedRoom
  have memory : stored.memory = machine.memory.overlay start.toNat (stream blocks) := stores.memory
  have passes : Passes (total blocks) placed stored := by
    rw [← length_stream]
    exact stores.passes
  have written : ∀ place < total blocks,
      stored.memory.byte? (start.toNat + place) = (stream blocks)[place]? := by
    intro place near
    rw [memory, Memory.byte?_overlay_inside _ _ (by simpa) (by omega)]
  have room : (stored.after [.setIndex start]).Room (total blocks) := passes.back placedRoom
  have placing : machine.Quiet [.setIndex start] := rfl
  have returning : stored.Quiet [.setIndex start] := rfl
  refine ⟨placing.append quiet, written, fun address outside => ?_, passes.index,
    returning.append (loads_all blocks room).1, ?_⟩
  · rw [memory, Memory.byte?_overlay_outside _ _ (by simpa)]
  · rintro earlier block later rfl before after
    obtain ⟨low, high, loads⟩ := loads_of_stream room written
    exact ⟨low, high, loads.memory, loads.passes.index⟩

/-- Two blocks that fill memory up to its end, and back. -/
theorem blocks_stream_tight :
    let machine := new (.ofSeed 0)
    let first : Block := ⟨Vector.replicate 16 0xaa, 2⟩
    let second : Block := ⟨Vector.replicate 16 0xbb, 15⟩
    let storing := .setIndex 0xfed :: storeAll [first, second]
    (machine.after storing).memory.byte? 0xff0 = some 0xbb ∧
      (machine.after storing).registers.index.toNat = 0x1000 ∧
      (((machine.after storing).after (.setIndex 0xfed :: loadAll [first])).after
        [.execute second.loadWord]).get 0 = 0xbb ∧
      ((machine.withAdvance false).execute 0xf255).machine.registers.index = 0 := by
  intro machine first second storing
  have size : machine.memory.size = 0x1000 := Array.size_replicate
  obtain ⟨streams, rests⟩ := blocks_stream machine
  obtain ⟨-, written, -, index, -, loads⟩ :=
    streams rfl (by rw [size]; decide) 0xfed [first, second] (by rw [size]; decide)
  obtain ⟨loaded, -⟩ := loads [first] second [] rfl
  obtain ⟨-, -, rested⟩ := rests 0xf255 (.inl ⟨by decide, by decide⟩)
  have fourth : (stream [first, second])[3]? = some 0xbb := by decide
  have behind : UInt16.toNat 0xfed + total [first, second] = 0x1000 := by decide
  exact ⟨(written 3 (by decide)).trans fourth, index.trans behind, loaded 0 (by decide),
    congrArg (·.registers.index) rested⟩

end Machine

end ChipEight
