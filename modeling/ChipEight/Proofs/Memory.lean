/-
**What memory holds and what it does not.**

Every access to memory answers exactly if all of its addresses are inside, and no write changes the
size:

* `word?_eq_none_iff`, `splice?_eq_none_iff`, `storeEach_complete_iff` and `length_available`: the
  addresses that an access needs;
* `byte?_of_splice?`, `byte?_of_splice?_outside`: the bytes after a block was replaced;
* `size_of_splice?`, `size_erase`: the size stays.
-/

import ChipEight.Memory.Basic

namespace ChipEight.Memory

variable {memory written : Memory}

/-! ### Reading -/

theorem byte?_eq_none_iff (memory : Memory) (address : Nat) :
    memory.byte? address = none ↔ memory.size ≤ address :=
  Array.getElem?_eq_none_iff

/-- A word needs two bytes. -/
theorem word?_eq_none_iff (memory : Memory) (address : Nat) :
    memory.word? address = none ↔ memory.size ≤ address + 1 := by
  have low := byte?_eq_none_iff memory (address + 1)
  have high := byte?_eq_none_iff memory address
  unfold word?
  cases first : memory.byte? address with
  | none =>
    have outside := high.mp first
    simp only [true_iff]
    omega
  | some _ =>
    cases second : memory.byte? (address + 1) with
    | none => simpa only [true_iff] using low.mp second
    | some _ =>
      rw [second] at low
      simpa using low

/-- As many bytes are available as lie between the address and the end. -/
theorem length_available (memory : Memory) (start count : Nat) :
    (memory.available start count).length = min count (memory.size - start) := by
  simp only [available, Array.length_toList, Array.size_extract, size]
  omega

theorem getElem?_available (memory : Memory) (start count offset : Nat) :
    (memory.available start count)[offset]? =
      if offset < count then memory.byte? (start + offset) else none := by
  rw [available, Array.getElem?_toList, Array.getElem?_extract, byte?]
  split <;> split
  · rfl
  · omega
  · exact (Array.getElem?_eq_none (by omega)).symm
  · rfl

/-- The available bytes are those at the addresses that follow. -/
theorem mem_available_iff (memory : Memory) (start count : Nat) (byte : UInt8) :
    byte ∈ memory.available start count ↔
      ∃ offset < count, memory.byte? (start + offset) = some byte := by
  simp only [List.mem_iff_getElem?, getElem?_available]
  constructor
  · rintro ⟨offset, found⟩
    split at found
    · exact ⟨offset, ‹_›, found⟩
    · cases found
  · rintro ⟨offset, near, found⟩
    exact ⟨offset, by rw [if_pos near, found]⟩

/-- The bytes of two ranges, one behind the other, are those of a single one. -/
theorem available_append (memory : Memory) (start count more : Nat) :
    memory.available start (count + more) =
      memory.available start count ++ memory.available (start + count) more := by
  rw [available, available, available, ← Array.toList_append, Array.extract_append_extract,
    Nat.min_eq_left (by omega), Nat.max_eq_right (by omega), Nat.add_assoc]

/-- No more bytes are available than there are up to the end. -/
theorem available_of_end (memory : Memory) {start count : Nat} (past : memory.size ≤ start + count) :
    memory.available start count = memory.available start (memory.size - start) := by
  unfold size at past
  refine congrArg Array.toList (Array.ext_getElem? fun offset => ?_)
  rw [Array.getElem?_extract, Array.getElem?_extract]
  unfold size
  split <;> split
  · rfl
  · omega
  · omega
  · rfl

/-! ### Writing -/

theorem splice?_eq_none_iff (memory : Memory) (start : Nat) (data : Array UInt8) :
    memory.splice? start data = none ↔ memory.size < start + data.size := by
  unfold splice?
  split <;> rename_i fits <;> simpa using fits

theorem size_of_splice? {start : Nat} {data : Array UInt8}
    (spliced : memory.splice? start data = some written) : written.size = memory.size := by
  unfold splice? at spliced
  split at spliced
  · rename_i fits
    cases spliced
    simp only [size, Array.size_append, Array.size_extract] at fits ⊢
    omega
  · cases spliced

/-- The new bytes stand where they were put. -/
theorem byte?_of_splice? {start place : Nat} {data : Array UInt8} (inside : place < data.size)
    (spliced : memory.splice? start data = some written) :
    written.byte? (start + place) = data[place]? := by
  unfold splice? at spliced
  split at spliced
  · rename_i fits
    cases spliced
    have before : (memory.bytes.extract 0 start).size = start := by
      rw [Array.size_extract]
      unfold size at fits
      omega
    rw [byte?, Array.getElem?_append_left (by rw [Array.size_append, before]; omega),
      Array.getElem?_append_right (by omega), before, Nat.add_sub_cancel_left]
  · cases spliced

/-- The other bytes stay. -/
theorem byte?_of_splice?_outside {start address : Nat} {data : Array UInt8}
    (outside : address < start ∨ start + data.size ≤ address)
    (spliced : memory.splice? start data = some written) :
    written.byte? address = memory.byte? address := by
  unfold splice? at spliced
  split at spliced
  · rename_i fits
    cases spliced
    unfold size at fits ⊢
    have before : (memory.bytes.extract 0 start).size = start := by
      rw [Array.size_extract]
      omega
    have through : (memory.bytes.extract 0 start ++ data).size = start + data.size := by
      rw [Array.size_append, before]
    rw [byte?, byte?]
    rcases outside with below | behind
    · rw [Array.getElem?_append_left (by omega), Array.getElem?_append_left (by omega),
        Array.getElem?_extract, if_pos (by omega), Nat.zero_add]
    · rw [Array.getElem?_append_right (by omega), through, Array.getElem?_extract]
      rcases Nat.lt_or_ge address memory.bytes.size with held | none
      · rw [if_pos (by omega), Nat.add_sub_cancel' behind]
      · rw [if_neg (by omega), Array.getElem?_eq_none none]
  · cases spliced

theorem store?_eq_none_iff (memory : Memory) (address : Nat) (value : UInt8) :
    memory.store? address value = none ↔ memory.size ≤ address := by
  unfold store?
  split <;> rename_i inside <;> simpa [size] using inside

theorem size_of_store? {address : Nat} {value : UInt8}
    (stored : memory.store? address value = some written) : written.size = memory.size := by
  unfold store? at stored
  split at stored
  · cases stored
    simp only [size, Array.size_set]
  · cases stored

/-- Bytes that are stored one by one all find room if the last one does. -/
theorem storeEach_complete_iff (memory : Memory) (address : Nat) (value : UInt8)
    (rest : List UInt8) :
    (memory.storeEach address (value :: rest)).2 = true ↔ address + rest.length < memory.size := by
  induction rest generalizing memory address value with
  | nil =>
    have room := store?_eq_none_iff memory address value
    unfold storeEach
    cases stored : memory.store? address value with
    | none => simpa using room.mp stored
    | some next =>
      rw [stored] at room
      simpa [storeEach] using room
  | cons second rest ih =>
    have room := store?_eq_none_iff memory address value
    rw [storeEach]
    cases stored : memory.store? address value with
    | none =>
      have outside := room.mp stored
      simp only [Bool.false_eq_true, List.length_cons, false_iff]
      omega
    | some next =>
      show (next.storeEach (address + 1) (second :: rest)).2 = true ↔ _
      rw [ih, size_of_store? stored, List.length_cons]
      omega

theorem size_erase (memory : Memory) : memory.erase.size = memory.size := by
  simp only [erase, size, Array.size_replicate]

end ChipEight.Memory
