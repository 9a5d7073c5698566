/-
**Memory.**

A memory is a row of bytes. A new one has 4096, but every operation works for a row of any length,
and what lies past its end can be neither read nor written: reading answers `none`, and a write
that would pass the end is not begun. The exception is `Memory.storeEach`, which stores one byte
after the other and keeps those that it stored before it met the end.
-/

import ChipEight.Failure

namespace ChipEight

/-- A row of bytes, addressed from zero. -/
structure Memory where
  bytes : Array UInt8
deriving DecidableEq

namespace Memory

/-- The number of bytes. -/
def size (memory : Memory) : Nat :=
  memory.bytes.size

/-- The size of a new memory. -/
def standardSize : Nat := 0x1000

/-- A new memory, all zero. -/
def blank : Memory :=
  ⟨Array.replicate standardSize 0⟩

/-- The same number of bytes, all zero. -/
def erase (memory : Memory) : Memory :=
  ⟨Array.replicate memory.size 0⟩

/-! ### Reading -/

/-- The byte at an address. -/
def byte? (memory : Memory) (address : Nat) : Option UInt8 :=
  memory.bytes[address]?

/-- The word at an address, high byte first. -/
def word? (memory : Memory) (address : Nat) : Option Word :=
  match memory.byte? address, memory.byte? (address + 1) with
  | some high, some low => some (Word.ofBytes high low)
  | _, _ => none

/-- The bytes from one address up to another. -/
def slice? (memory : Memory) (start stop : Nat) : Option (Array UInt8) :=
  if start ≤ stop ∧ stop ≤ memory.size then some (memory.bytes.extract start stop) else none

/-- As many of `count` bytes from an address as memory holds. -/
def available (memory : Memory) (start count : Nat) : List UInt8 :=
  (memory.bytes.extract start (start + count)).toList

/-! ### Writing -/

/-- Stores one byte. -/
def store? (memory : Memory) (address : Nat) (value : UInt8) : Option Memory :=
  if inside : address < memory.bytes.size then some ⟨memory.bytes.set address value inside⟩
  else none

/-- Stores bytes one after the other; tells whether all of them found room. -/
def storeEach (memory : Memory) (address : Nat) : List UInt8 → Memory × Bool
  | [] => (memory, true)
  | value :: rest =>
    match memory.store? address value with
    | none => (memory, false)
    | some stored => stored.storeEach (address + 1) rest

/-- Replaces the bytes from an address on, provided that all of the new ones fit. -/
def splice? (memory : Memory) (start : Nat) (data : Array UInt8) : Option Memory :=
  if start + data.size ≤ memory.size then
    some ⟨memory.bytes.extract 0 start ++ data
      ++ memory.bytes.extract (start + data.size) memory.size⟩
  else none

/-- Zeroes everything from an address on. -/
def clearFrom (memory : Memory) (start : Nat) : Memory :=
  ⟨memory.bytes.extract 0 start ++ Array.replicate (memory.size - start) 0⟩

/-! ### Regions -/

/-- The bytes of a region. -/
def region? (memory : Memory) (region : Region) : Option (Array UInt8) :=
  memory.slice? region.start region.stop

/-- Zeroes a region. -/
def clearRegion? (memory : Memory) (region : Region) : Option Memory :=
  memory.splice? region.start (Array.replicate region.capacity 0)

/-- Copies a payload to the start of a region. It has to leave a byte of the region free. -/
def load (memory : Memory) (region : Region) (payload : Array UInt8) : Except Failure Memory :=
  if region.capacity ≤ payload.size then
    .error (.refused (.payloadTooLong region payload.size region.capacity))
  else
    match memory.splice? region.start payload with
    | none => .error .outOfBounds
    | some loaded => .ok loaded

end Memory

end ChipEight
