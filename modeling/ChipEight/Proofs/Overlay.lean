/-
**Writes to memory, byte by byte.**

`Memory.overlay` lays bytes over memory from an address on and drops what would pass its end. Both
ways to store several bytes are overlays:

* `storeEach_eq_overlay`: storing one byte after the other, wherever memory ends;
* `splice?_eq_overlay`: replacing a block, provided that it fits.

`byte?_overlay` is the law of an overlay: the byte at every address.
-/

import Mathlib.Tactic.Common
import ChipEight.Proofs.Memory

namespace ChipEight.Memory

/-- Memory with bytes laid over it from an address on, as far as it reaches. -/
def overlay (memory : Memory) (start : Nat) (values : List UInt8) : Memory :=
  ⟨memory.bytes.mapIdx fun address byte =>
    if start ≤ address then values[address - start]?.getD byte else byte⟩

/-- Two memories are equal if they hold the same bytes. -/
theorem ext_byte? {first second : Memory}
    (same : ∀ address, first.byte? address = second.byte? address) : first = second := by
  obtain ⟨bytes⟩ := first
  obtain ⟨others⟩ := second
  exact congrArg Memory.mk (Array.ext_getElem? same)

theorem byte?_of_store? {memory written : Memory} {address : Nat} {value : UInt8}
    (stored : memory.store? address value = some written) (place : Nat) :
    written.byte? place = if address = place then some value else memory.byte? place := by
  unfold store? at stored
  split at stored
  · rename_i inside
    cases stored
    exact Array.getElem?_set inside
  · cases stored

/-! ### The law of an overlay -/

variable (memory : Memory) (start : Nat)

theorem byte?_overlay (values : List UInt8) (address : Nat) :
    (memory.overlay start values).byte? address = (memory.byte? address).map fun byte =>
      if start ≤ address then values[address - start]?.getD byte else byte :=
  Array.getElem?_mapIdx

theorem size_overlay (values : List UInt8) : (memory.overlay start values).size = memory.size :=
  Array.size_mapIdx

theorem exists_byte {address : Nat} (held : address < memory.size) :
    ∃ byte, memory.byte? address = some byte :=
  ⟨_, Array.getElem?_eq_getElem held⟩

/-- The bytes laid over memory stand where they were put. -/
theorem byte?_overlay_inside {values : List UInt8} {place : Nat} (given : place < values.length)
    (held : start + place < memory.size) :
    (memory.overlay start values).byte? (start + place) = values[place]? := by
  obtain ⟨byte, found⟩ := memory.exists_byte held
  rw [byte?_overlay, found, Option.map_some, if_pos (Nat.le_add_right _ _),
    Nat.add_sub_cancel_left, List.getElem?_eq_getElem given, Option.getD_some]

/-- Outside of the bytes laid over it, memory stays. -/
theorem byte?_overlay_outside {values : List UInt8} {address : Nat}
    (outside : address < start ∨ start + values.length ≤ address) :
    (memory.overlay start values).byte? address = memory.byte? address := by
  have kept : ∀ byte : UInt8,
      (if start ≤ address then values[address - start]?.getD byte else byte) = byte := by
    intro byte
    rcases outside with below | above
    · rw [if_neg (by omega)]
    · rw [List.getElem?_eq_none (by omega), Option.getD_none, ite_self]
  rw [byte?_overlay]
  simp only [kept, Option.map_id']

theorem inside_of_overlay_changed {values : List UInt8} {address : Nat}
    (changed : (memory.overlay start values).byte? address ≠ memory.byte? address) :
    start ≤ address ∧ address < start + values.length := by
  by_contra outside
  exact changed (byte?_overlay_outside memory start (by omega))

theorem overlay_of_end {values : List UInt8} (outside : memory.size ≤ start) :
    memory.overlay start values = memory := by
  refine ext_byte? fun address => ?_
  rcases Nat.lt_or_ge address start with below | above
  · exact byte?_overlay_outside memory start (.inl below)
  · have none := (byte?_eq_none_iff memory address).mpr (by omega)
    rw [byte?_overlay, none, Option.map_none]

theorem overlay_nil : memory.overlay start [] = memory := by
  refine ext_byte? fun address => byte?_overlay_outside memory start ?_
  rw [List.length_nil]
  omega

/-- A byte laid over memory, and the others behind it. -/
theorem overlay_cons {stored : Memory} {value : UInt8} (rest : List UInt8)
    (first : memory.store? start value = some stored) :
    memory.overlay start (value :: rest) = stored.overlay (start + 1) rest := by
  refine ext_byte? fun address => ?_
  have room : start < memory.size := by
    by_contra full
    rw [(store?_eq_none_iff memory start value).mpr (by omega)] at first
    cases first
  rw [byte?_overlay, byte?_overlay, byte?_of_store? first]
  rcases Nat.lt_trichotomy address start with below | same | above
  · simp only [Nat.not_le.mpr below, show ¬ start + 1 ≤ address by omega,
      show start ≠ address by omega, if_false]
  · subst same
    obtain ⟨byte, held⟩ := memory.exists_byte room
    simp only [held, Option.map_some, Nat.le_refl, if_true, Nat.sub_self,
      List.getElem?_cons_zero, Option.getD_some, Nat.not_succ_le_self, if_false]
  · rw [if_neg (by omega)]
    simp only [show start ≤ address by omega, show start + 1 ≤ address by omega, if_true]
    obtain ⟨offset, rfl⟩ : ∃ offset, address = start + 1 + offset := ⟨address - start - 1, by omega⟩
    rw [show start + 1 + offset - start = offset + 1 by omega, Nat.add_sub_cancel_left,
      List.getElem?_cons_succ]

/-- Bytes laid over memory one behind the other are laid over it together. -/
theorem overlay_append (values others : List UInt8) :
    memory.overlay start (values ++ others) =
      (memory.overlay start values).overlay (start + values.length) others := by
  refine ext_byte? fun address => ?_
  rw [byte?_overlay, byte?_overlay, byte?_overlay, Option.map_map]
  congr 1
  funext byte
  simp only [Function.comp_apply]
  rcases Nat.lt_or_ge address start with below | above
  · rw [if_neg (by omega), if_neg (by omega), if_neg (by omega)]
  obtain ⟨place, rfl⟩ := Nat.exists_eq_add_of_le above
  rw [if_pos above, if_pos above, Nat.add_sub_cancel_left]
  rcases Nat.lt_or_ge place values.length with first | second
  · rw [List.getElem?_append_left first, if_neg (by omega)]
  · rw [List.getElem?_append_right second, if_pos (by omega), List.getElem?_eq_none second,
      Option.getD_none, Nat.add_sub_add_left]

/-! ### Stores as overlays -/

/-- **Bytes that are stored one by one** are laid over memory, as far as it reaches. -/
theorem storeEach_eq_overlay (values : List UInt8) :
    (memory.storeEach start values).1 = memory.overlay start values := by
  induction values generalizing memory start with
  | nil => exact (overlay_nil memory start).symm
  | cons value rest ih =>
    rw [storeEach]
    cases first : memory.store? start value with
    | none => exact (overlay_of_end memory start ((store?_eq_none_iff _ _ _).mp first)).symm
    | some stored =>
      rw [overlay_cons memory start rest first]
      exact ih stored (start + 1)

/-- **A block that fits** is laid over memory. -/
theorem splice?_eq_overlay (data : Array UInt8) :
    memory.splice? start data =
      if start + data.size ≤ memory.size then some (memory.overlay start data.toList) else none := by
  have room := splice?_eq_none_iff memory start data
  cases spliced : memory.splice? start data with
  | none => rw [if_neg (Nat.not_le.mpr (room.mp spliced))]
  | some written =>
    have fits : start + data.size ≤ memory.size := by
      by_contra full
      rw [room.mpr (by omega)] at spliced
      cases spliced
    rw [if_pos fits]
    refine congrArg some (ext_byte? fun address => ?_)
    by_cases inside : start ≤ address ∧ address < start + data.size
    · obtain ⟨place, rfl⟩ := Nat.exists_eq_add_of_le inside.1
      have given : place < data.size := by omega
      rw [byte?_of_splice? given spliced, byte?_overlay_inside memory start (by simpa) (by omega),
        Array.getElem?_toList]
    · have outside : address < start ∨ start + data.size ≤ address := by omega
      rw [byte?_of_splice?_outside outside spliced, byte?_overlay_outside memory start (by simpa)]

end ChipEight.Memory
