/-
**Random bytes one by one and block by block.**

A source of random bytes knows how many it gave out and computes the next one from that. The stream can
also be read as it is made, in blocks of sixteen words: a `BlockReader` keeps a block, gives out one
byte for each of its words, and makes the next block when all are used up.

* `RandomSource.take_eq`: some bytes of a source are the ones behind its position;
* `BlockReader.Follows`, with `follows_next`: a reader and a source that are at the same place stay
  there;
* `BlockReader.take_ofSeed`: so a reader gives out the stream of its seed.
-/

import Mathlib.Algebra.Group.Nat.Defs
import Mathlib.Tactic.Common
import ChipEight.Random

namespace ChipEight

/-! ### Positions -/

namespace RandomSource

/-- **Some bytes of a source** are those of its key behind its position. -/
theorem take_eq (source : RandomSource) (count : Nat) :
    source.take count =
      ((List.range count).map fun place =>
          (KeyStream.word source.key (source.position + place)).toUInt8,
        { source with position := source.position + count }) := by
  induction count generalizing source with
  | zero => rfl
  | succ count ih =>
    have places : ∀ place, source.position + 1 + place = source.position + (place + 1) := by omega
    have rest := ih source.next.2
    simp only [next, places] at rest
    simp only [take, next, rest, List.range_succ_eq_map, List.map_cons, List.map_map]
    rfl

end RandomSource

/-! ### Blocks -/

/-- A key stream that is read block by block. -/
structure BlockReader where
  key : KeyStream.Key
  /-- The number of the next block. -/
  counter : UInt64
  /-- The block that is being read. -/
  buffer : KeyStream.Block
  /-- How many words of the block have been read. -/
  index : Nat

namespace BlockReader

/-- A reader of the stream of a seed. It has no block yet, as if it had read all of one. -/
def ofSeed (seed : UInt64) : BlockReader :=
  ⟨KeyStream.expand seed, 0, Vector.replicate 16 0, 16⟩

/-- A reader with the next block, of which it has read nothing. -/
def refill (reader : BlockReader) : BlockReader :=
  { reader with
    counter := reader.counter + 1
    buffer := KeyStream.block reader.key reader.counter.toNat
    index := 0 }

/-- A reader that has words left. -/
def ready (reader : BlockReader) : BlockReader :=
  if reader.index < 16 then reader else reader.refill

/-- The next byte, and the reader behind it. -/
def next (reader : BlockReader) : UInt8 × BlockReader :=
  ((reader.ready.buffer[reader.ready.index]?.getD 0).toUInt8,
    { reader.ready with index := reader.ready.index + 1 })

/-- The next few bytes, and the reader behind them. -/
def take (reader : BlockReader) : Nat → List UInt8 × BlockReader
  | 0 => ([], reader)
  | count + 1 =>
    let (byte, rest) := reader.next
    let (bytes, last) := rest.take count
    (byte :: bytes, last)

/-- Whether a reader has read as far as a source: it has the blocks up to the position, and is as far
into the last one. -/
structure Follows (reader : BlockReader) (source : RandomSource) : Prop where
  key : reader.key = source.key
  counter : reader.counter = UInt64.ofNat ((source.position + 15) / 16)
  index : reader.index + 16 * ((source.position + 15) / 16) = source.position + 16
  buffer : reader.index < 16 → reader.buffer = KeyStream.block source.key (source.position / 16)

variable {reader : BlockReader} {source : RandomSource}

theorem follows_ofSeed (seed : UInt64) : (ofSeed seed).Follows (.ofSeed seed) where
  key := rfl
  counter := show (0 : UInt64) = UInt64.ofNat ((0 + 15) / 16) from rfl
  index := show 16 + 16 * ((0 + 15) / 16) = 0 + 16 from rfl
  buffer left := absurd left (Nat.lt_irrefl 16)

/-- A counter that runs over begins the blocks again. -/
theorem block_mod (key : KeyStream.Key) (counter : Nat) :
    KeyStream.block key (counter % 2 ^ 64) = KeyStream.block key counter := by
  have low : UInt32.ofNat (counter % 2 ^ 64) = UInt32.ofNat counter := by
    rw [← UInt32.toNat_inj, UInt32.toNat_ofNat', UInt32.toNat_ofNat']
    omega
  have high : UInt32.ofNat (counter % 2 ^ 64 / 0x100000000) = UInt32.ofNat (counter / 0x100000000) := by
    rw [← UInt32.toNat_inj, UInt32.toNat_ofNat', UInt32.toNat_ofNat']
    omega
  have same : KeyStream.counterWords (counter % 2 ^ 64) = KeyStream.counterWords counter := by
    unfold KeyStream.counterWords
    rw [low, high]
  unfold KeyStream.block KeyStream.initialBlock
  rw [same]

/-- **A reader with words left** has the block of the source and is at its place there. -/
theorem Follows.ready (follows : reader.Follows source) :
    reader.ready.key = source.key ∧
      reader.ready.counter = UInt64.ofNat (source.position / 16 + 1) ∧
      reader.ready.buffer = KeyStream.block source.key (source.position / 16) ∧
      reader.ready.index = source.position % 16 := by
  obtain ⟨key, counter, index, buffer⟩ := follows
  unfold BlockReader.ready
  split
  · rename_i left
    refine ⟨key, ?_, buffer left, by omega⟩
    rw [counter]
    congr 1
    omega
  · rename_i used
    have last : (source.position + 15) / 16 = source.position / 16 := by omega
    rw [last] at counter
    refine ⟨key, ?_, ?_, by show 0 = _; omega⟩
    · show reader.counter + 1 = _
      rw [counter, UInt64.ofNat_add]
      rfl
    · show KeyStream.block reader.key reader.counter.toNat = _
      rw [key, counter, UInt64.toNat_ofNat']
      exact block_mod source.key _

/-- **The next byte of a reader is the next byte of the source** that it follows, and it goes on
following it. -/
theorem Follows.next (follows : reader.Follows source) :
    reader.next.1 = source.next.1 ∧ reader.next.2.Follows source.next.2 := by
  obtain ⟨key, counter, buffer, index⟩ := follows.ready
  refine ⟨?_, key, ?_, ?_, ?_⟩
  · show (reader.ready.buffer[reader.ready.index]?.getD 0).toUInt8 = _
    rw [buffer, index, Vector.getElem?_eq_getElem (Nat.mod_lt source.position (by decide))]
    rfl
  · show reader.ready.counter = UInt64.ofNat ((source.position + 1 + 15) / 16)
    rw [counter]
    congr 1
    omega
  · show reader.ready.index + 1 + 16 * ((source.position + 1 + 15) / 16) = source.position + 1 + 16
    omega
  · intro left
    replace left : reader.ready.index + 1 < 16 := left
    show reader.ready.buffer = KeyStream.block source.key ((source.position + 1) / 16)
    rw [buffer]
    congr 1
    omega

/-- So are the next few bytes. -/
theorem Follows.take (follows : reader.Follows source) (count : Nat) :
    (reader.take count).1 = (source.take count).1 := by
  induction count generalizing reader source with
  | zero => rfl
  | succ count ih =>
    obtain ⟨byte, after⟩ := follows.next
    exact List.cons_eq_cons.mpr ⟨byte, ih after⟩

/-- **A reader gives out the stream of its seed**, however many bytes are read. -/
theorem take_ofSeed (seed : UInt64) (count : Nat) :
    ((ofSeed seed).take count).1 = (List.range count).map (RandomSource.stream seed) := by
  rw [(follows_ofSeed seed).take, RandomSource.take_eq]
  simp only [RandomSource.ofSeed, Nat.zero_add]
  rfl

end BlockReader

end ChipEight
