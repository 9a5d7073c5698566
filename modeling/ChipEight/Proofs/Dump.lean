/-
**A dump read back.**

What a dump shows for a byte depends on the place of the byte in its line only, so a dump can be cut
behind any whole line (`dumpBytes_append`). Facts about dumps therefore follow the lines of sixteen
bytes (`row_induction`), and the last line may be shorter:

* `toList_dumpBytes_row`: a single line;
* `lines_dumpBytes`: the lines of a dump, each with its address;
* `digitsShown_dumpBytes`: the digits behind the addresses are those of the bytes in order;
* `getLast_dumpBytes`: a line break at the end;
* `dump_reads_back`: all of this together, for a range of memory.
-/

import ChipEight.Memory.Dump
import ChipEight.Proofs.Memory
import ChipEight.Proofs.Text

namespace ChipEight.Memory

/-! ### Reading a dump -/

/-- What a line of a dump starts with: an address and a colon, both styled. -/
def heading (address : Nat) : List Char :=
  (Style.phosphor.apply (Numeral.hex 3 address) ++ Style.phosphor.apply ":").toList

/-- What stands behind the headings of lines, the first of which has the given address. -/
def behindHeadings : Nat → List (List Char) → List Char
  | _, [] => []
  | address, line :: below =>
    line.drop (heading address).length ++ behindHeadings (address + 16) below

/-- **The digits that a dump shows**, behind the headings and without the blanks. -/
def digitsShown (start : Nat) (dump : String) : List Char :=
  (behindHeadings start (Text.lines dump.toList)).filter (· ≠ ' ')

/-! ### Lines of sixteen bytes -/

/-- **What holds of all dumps**: it holds of nothing, of a line that is not full, and with a full line
in front. -/
theorem row_induction {motive : Nat → List UInt8 → Prop} (empty : ∀ start, motive start [])
    (short : ∀ start bytes, bytes ≠ [] → bytes.length < 16 → motive start bytes)
    (full : ∀ start row rest, row.length = 16 → motive (start + 16) rest →
      motive start (row ++ rest))
    (start : Nat) (bytes : List UInt8) : motive start bytes := by
  induction count : bytes.length using Nat.strongRecOn generalizing start bytes with
  | ind _ ih =>
    subst count
    by_cases none : bytes = []
    · exact none ▸ empty start
    · rcases Nat.lt_or_ge bytes.length 16 with few | many
      · exact short start bytes none few
      · have behind := ih _ (show (bytes.drop 16).length < bytes.length by
          rw [List.length_drop]
          omega) (start + 16) (bytes.drop 16) rfl
        rw [← List.take_append_drop 16 bytes]
        exact full start _ _ (by rw [List.length_take]; omega) behind

/-- The bytes of a line with the gaps behind them, from a place in the line on. -/
def grouped : Nat → List UInt8 → List Char
  | _, [] => []
  | place, byte :: rest =>
    (Numeral.hex 2 byte.toNat).toList ++ (gap place).toList ++ grouped (place + 1) rest

theorem grouped_append (place : Nat) (first rest : List UInt8) :
    grouped place (first ++ rest) = grouped place first ++ grouped (place + first.length) rest := by
  induction first generalizing place with
  | nil => rfl
  | cons byte others ih =>
    rw [List.cons_append, grouped, grouped, ih, List.length_cons, List.append_assoc _ _ (grouped _ rest),
      Nat.add_assoc, Nat.add_comm 1]

/-- What a line shows behind its heading. -/
def body (row : List UInt8) : List Char :=
  ' ' :: (grouped 0 row).filter (· ≠ '\n')

/-- Between the digits there are blanks and line breaks only. -/
theorem filter_gap (place : Nat) :
    (gap place).toList.filter (fun character => character ≠ ' ' ∧ character ≠ '\n') = [] := by
  unfold gap
  split
  · rfl
  · split
    · rfl
    · split <;> rfl

theorem solid_gap {place : Nat} (notLast : place ≠ 15) : '\n' ∉ (gap place).toList := by
  rw [gap, if_neg notLast]
  split
  · decide
  · split <;> decide

/-- Without blanks and line breaks, the digits of the bytes are left. -/
theorem filter_grouped (place : Nat) (bytes : List UInt8) :
    (grouped place bytes).filter (fun character => character ≠ ' ' ∧ character ≠ '\n') =
      (Numeral.hexBytes bytes).toList := by
  rw [Numeral.toList_hexBytes]
  induction bytes generalizing place with
  | nil => rfl
  | cons byte rest ih =>
    have digits : (Numeral.hex 2 byte.toNat).toList.filter
        (fun character => character ≠ ' ' ∧ character ≠ '\n') = (Numeral.hex 2 byte.toNat).toList := by
      refine List.filter_eq_self.mpr fun character member => decide_eq_true ⟨?_, ?_⟩
      · rintro rfl
        exact Numeral.not_mem_hex (by decide) _ _ member
      · rintro rfl
        exact (Numeral.printable_hex _ _).solid member
    rw [grouped, List.filter_append, List.filter_append, digits, filter_gap, ih, List.append_nil,
      List.flatMap_cons]

/-- **The digits behind a heading** are those of the bytes of the line. -/
theorem filter_body (row : List UInt8) :
    (body row).filter (· ≠ ' ') = (Numeral.hexBytes row).toList := by
  rw [← filter_grouped 0 row, body, List.filter_cons_of_neg (by decide), List.filter_filter]
  refine List.filter_congr fun character _ => ?_
  rw [Bool.decide_and]

/-- No line is broken before its last place. -/
theorem solid_grouped {place : Nat} {bytes : List UInt8} (few : place + bytes.length ≤ 15) :
    '\n' ∉ grouped place bytes := by
  induction bytes generalizing place with
  | nil => exact List.not_mem_nil
  | cons byte rest ih =>
    rw [List.length_cons] at few
    simp only [grouped, List.mem_append, not_or]
    exact ⟨⟨(Numeral.printable_hex _ _).solid, solid_gap (by omega)⟩, ih (by omega)⟩

theorem filter_of_solid {text : List Char} (solid : '\n' ∉ text) :
    text.filter (· ≠ '\n') = text :=
  List.filter_eq_self.mpr fun _ member => decide_eq_true fun same => solid (same ▸ member)

/-- A line that is not full has no line break. -/
theorem grouped_short {row : List UInt8} (few : row.length < 16) : ' ' :: grouped 0 row = body row := by
  rw [body, filter_of_solid (solid_grouped (by omega))]

/-- A full line ends with a line break. -/
theorem grouped_full {row : List UInt8} (full : row.length = 16) :
    ' ' :: grouped 0 row = body row ++ ['\n'] := by
  obtain ⟨first, last, rfl⟩ : ∃ first last, row = first ++ [last] :=
    (List.eq_nil_or_concat' row).resolve_left (List.ne_nil_of_length_pos (by omega))
  have before : first.length = 15 := by simpa using full
  have line : grouped 0 (first ++ [last]) =
      (grouped 0 first ++ (Numeral.hex 2 last.toNat).toList) ++ ['\n'] := by
    rw [grouped_append, before, List.append_assoc, grouped, grouped, List.append_nil]
    rfl
  have solid : '\n' ∉ grouped 0 first ++ (Numeral.hex 2 last.toNat).toList := by
    rw [List.mem_append, not_or]
    exact ⟨solid_grouped (by omega), (Numeral.printable_hex _ _).solid⟩
  rw [body, line, List.filter_append, filter_of_solid solid, List.cons_append]
  simp

theorem solid_body (row : List UInt8) : '\n' ∉ body row := by
  simp [body]

/-! ### Dumps by lines -/

theorem toList_lineHead (address : Nat) : (lineHead address).toList = heading address ++ [' '] :=
  String.toList_append

theorem solid_heading (address : Nat) : '\n' ∉ heading address := by
  rw [heading, String.toList_append, List.mem_append, not_or]
  exact ⟨Style.isSilent_phosphor.solid_apply (Numeral.printable_hex _ _).solid,
    Style.isSilent_phosphor.solid_apply (by decide)⟩

/-- The parts of a dump, one behind the other. -/
theorem toList_dumpBytes (start : Nat) (bytes : List UInt8) :
    (dumpBytes start bytes).toList =
      bytes.zipIdx.flatMap fun part => (dumpByte start part.2 part.1).toList := by
  rw [dumpBytes, String.toList_join, List.flatMap_map]

/-- Behind the first byte of a line there is no heading. -/
theorem flatMap_dumpByte (start : Nat) {place : Nat} {bytes : List UInt8} (begun : 0 < place)
    (few : place + bytes.length ≤ 16) :
    (bytes.zipIdx place).flatMap (fun part => (dumpByte start part.2 part.1).toList) =
      grouped place bytes := by
  induction bytes generalizing place with
  | nil => rfl
  | cons byte rest ih =>
    rw [List.length_cons] at few
    have here : (dumpByte start place byte).toList =
        (Numeral.hex 2 byte.toNat).toList ++ (gap place).toList := by
      have inLine : place % 16 = place := Nat.mod_eq_of_lt (by omega)
      rw [dumpByte, inLine, if_neg (by omega), String.empty_append, String.toList_append]
    rw [List.zipIdx_cons, List.flatMap_cons, ih (by omega) (by omega), grouped, here]

/-- **A single line of a dump.** -/
theorem toList_dumpBytes_row (start : Nat) {row : List UInt8} (nonempty : row ≠ [])
    (few : row.length ≤ 16) :
    (dumpBytes start row).toList = heading start ++ ' ' :: grouped 0 row := by
  obtain _ | ⟨byte, rest⟩ := row
  · exact absurd rfl nonempty
  · rw [List.length_cons] at few
    have first : (dumpByte start 0 byte).toList =
        heading start ++ ' ' :: ((Numeral.hex 2 byte.toNat).toList ++ (gap 0).toList) := by
      rw [dumpByte, if_pos rfl, String.toList_append, String.toList_append, toList_lineHead]
      simp
    rw [toList_dumpBytes, List.zipIdx_cons, List.flatMap_cons, first,
      flatMap_dumpByte start (by omega) (by omega), List.append_assoc, List.cons_append]
    rfl

/-- A byte is shown the same in every line, at the same place. -/
theorem dumpByte_of_line (start index lines : Nat) (byte : UInt8) :
    dumpByte start (16 * lines + index) byte = dumpByte (start + 16 * lines) index byte := by
  rw [dumpByte, dumpByte, Nat.mul_add_mod, Nat.add_assoc]

/-- **Behind whole lines a dump goes on like a dump of the rest.** -/
theorem dumpBytes_append (start : Nat) {first : List UInt8} (rest : List UInt8)
    (whole : first.length % 16 = 0) :
    dumpBytes start (first ++ rest) =
      dumpBytes start first ++ dumpBytes (start + first.length) rest := by
  obtain ⟨lines, count⟩ := Nat.dvd_of_mod_eq_zero whole
  have behind : rest.zipIdx (0 + first.length) =
      rest.zipIdx.map fun part => (part.1, 16 * lines + part.2) := by
    rw [Nat.zero_add, count]
    exact List.zipIdx_eq_map_add
  rw [dumpBytes, List.zipIdx_append, List.map_append, String.join_append, behind, List.map_map,
    count]
  congr 3
  funext part
  exact dumpByte_of_line start part.2 lines part.1

/-! ### Reading lines -/

variable (start : Nat) {row rest : List UInt8}

theorem solid_line (row : List UInt8) : '\n' ∉ heading start ++ body row := by
  rw [List.mem_append, not_or]
  exact ⟨solid_heading start, solid_body row⟩

theorem lines_short (nonempty : row ≠ []) (few : row.length < 16) :
    Text.lines (dumpBytes start row).toList = [heading start ++ body row] := by
  rw [toList_dumpBytes_row start nonempty (by omega), grouped_short few]
  exact Text.lines_of_solid (solid_line start row) (by simp [body])

/-- A full line stands in front of the lines of the rest. -/
theorem toList_full (full : row.length = 16) :
    (dumpBytes start (row ++ rest)).toList =
      (heading start ++ body row) ++ '\n' :: (dumpBytes (start + 16) rest).toList := by
  have nonempty : row ≠ [] := List.ne_nil_of_length_pos (by omega)
  rw [dumpBytes_append start rest (by omega), full, String.toList_append,
    toList_dumpBytes_row start nonempty (by omega), grouped_full full]
  simp

theorem lines_full (full : row.length = 16) :
    Text.lines (dumpBytes start (row ++ rest)).toList =
      (heading start ++ body row) :: Text.lines (dumpBytes (start + 16) rest).toList := by
  rw [toList_full start full]
  exact Text.lines_append_break (solid_line start row) _

/-- **The lines of a dump**, one for each sixteen bytes and one for the rest. -/
theorem lines_dumpBytes (bytes : List UInt8) :
    Text.lines (dumpBytes start bytes).toList =
      (List.range ((bytes.length + 15) / 16)).map fun line =>
        heading (start + 16 * line) ++ body ((bytes.drop (16 * line)).take 16) := by
  induction start, bytes using row_induction with
  | empty start => rfl
  | short start bytes nonempty few =>
    have one : (bytes.length + 15) / 16 = 1 := by
      have some := List.length_pos_iff.mpr nonempty
      omega
    rw [lines_short start nonempty few, one]
    show _ = [heading start ++ body (bytes.take 16)]
    rw [List.take_of_length_le (by omega)]
  | full start row rest full ih =>
    have more : ((row ++ rest).length + 15) / 16 = (rest.length + 15) / 16 + 1 := by
      rw [List.length_append]
      omega
    have first : (row ++ rest).take 16 = row := by rw [← full, List.take_left]
    have behind (line : Nat) : (row ++ rest).drop (16 * (line + 1)) = rest.drop (16 * line) := by
      rw [Nat.mul_succ, Nat.add_comm, ← List.drop_drop, ← full, List.drop_left]
    rw [lines_full start full, ih, more, List.range_succ_eq_map, List.map_cons, List.map_map]
    refine congrArg₂ List.cons ?_ (List.map_congr_left fun line _ => ?_)
    · show _ = heading start ++ body ((row ++ rest).take 16)
      rw [first]
    · have address : start + 16 * (line + 1) = start + 16 + 16 * line := by omega
      show _ = heading (start + 16 * (line + 1)) ++ body (((row ++ rest).drop (16 * (line + 1))).take 16)
      rw [behind, address]

/-- **The digits that a dump shows are those of the bytes**, in order. -/
theorem digitsShown_dumpBytes (bytes : List UInt8) :
    digitsShown start (dumpBytes start bytes) = (Numeral.hexBytes bytes).toList := by
  unfold digitsShown
  induction start, bytes using row_induction with
  | empty start => rfl
  | short start bytes nonempty few =>
    rw [lines_short start nonempty few, behindHeadings, behindHeadings, List.drop_left,
      List.append_nil, filter_body]
  | full start row rest full ih =>
    rw [lines_full start full, behindHeadings, List.drop_left, List.filter_append, filter_body, ih]
    simp only [Numeral.toList_hexBytes, List.flatMap_append]

theorem dumpBytes_ne_nil {bytes : List UInt8} (nonempty : bytes ≠ []) :
    (dumpBytes start bytes).toList ≠ [] := by
  intro none
  have lines := congrArg List.length (lines_dumpBytes start bytes)
  have some := List.length_pos_iff.mpr nonempty
  rw [none, List.length_map, List.length_range] at lines
  change 0 = _ at lines
  omega

/-- **A dump ends with a line break** if it has whole lines only, and some. -/
theorem getLast_dumpBytes (bytes : List UInt8) :
    (dumpBytes start bytes).toList.getLast? = some '\n' ↔
      0 < bytes.length ∧ bytes.length % 16 = 0 := by
  induction start, bytes using row_induction with
  | empty start => simp [dumpBytes]
  | short start bytes nonempty few =>
    have some := List.length_pos_iff.mpr nonempty
    rw [toList_dumpBytes_row start nonempty (by omega), grouped_short few]
    exact iff_of_false (fun ends => solid_line start bytes (List.mem_of_getLast? ends)) (by omega)
  | full start row rest full ih =>
    rw [toList_full start full, List.getLast?_append_cons, List.length_append, full]
    by_cases none : rest = []
    · subst none
      exact iff_of_true rfl (by decide)
    · have some := List.length_pos_iff.mpr none
      rw [List.getLast?_cons_of_ne_nil (dumpBytes_ne_nil (start + 16) none), ih]
      omega

/-! ### Ranges of memory -/

variable (memory : Memory) (start stop : Nat)

/-- A range inside memory is dumped. -/
theorem dumpRange?_inside {start stop : Nat} (ordered : start ≤ stop) (inside : stop ≤ memory.size) :
    memory.dumpRange? start stop = some (dumpBytes start (memory.available start (stop - start))) := by
  rw [dumpRange?, slice?, if_pos ⟨ordered, inside⟩, available, Nat.add_sub_cancel' ordered]
  rfl

/-- The range of all addresses is all of memory. -/
theorem dumpRange?_all : memory.dumpRange? 0 memory.size = some memory.dump := by
  rw [dumpRange?, slice?, if_pos ⟨Nat.zero_le _, Nat.le_refl _⟩, size, Array.extract_size]
  rfl

/-- **A dump can be read back, and dumps can be put together.** The dump of a range has a line for
each sixteen bytes and one for the rest. Each line starts with the address of its first byte. Behind
the addresses stand the digits of its bytes, so all digits together are those of the range and give
its bytes back. Behind whole lines a dump goes on like the dump of the next range. The dump of all of
memory is that of its whole range. -/
theorem dump_reads_back (ordered : start ≤ stop) (inside : stop ≤ memory.size) :
    ∃ dump bytes, memory.dumpRange? start stop = some dump ∧
      bytes.length = stop - start ∧
      (∀ offset < stop - start, bytes[offset]? = memory.byte? (start + offset)) ∧
      (Text.lines dump.toList).length = (stop - start + 15) / 16 ∧
      (∀ line < (stop - start + 15) / 16, ∃ behind,
        (Text.lines dump.toList)[line]? = some (heading (start + 16 * line) ++ behind) ∧
          3 ≤ (Numeral.hex 3 (start + 16 * line)).toList.length ∧
          behind.filter (· ≠ ' ') =
            (Numeral.hexBytes ((bytes.drop (16 * line)).take 16)).toList) ∧
      digitsShown start dump = (Numeral.hexBytes bytes).toList ∧
      Numeral.bytesOf? (digitsShown start dump) = some bytes ∧
      (dump.toList.getLast? = some '\n' ↔ start < stop ∧ (stop - start) % 16 = 0) ∧
      (∀ last, (stop - start) % 16 = 0 → stop ≤ last → last ≤ memory.size →
        ∃ behind, memory.dumpRange? stop last = some behind ∧
          memory.dumpRange? start last = some (dump ++ behind)) ∧
      memory.dumpRange? 0 memory.size = some memory.dump := by
  have length : (memory.available start (stop - start)).length = stop - start := by
    rw [length_available]
    omega
  refine ⟨_, _, memory.dumpRange?_inside ordered inside, length, fun offset near => ?_, ?_,
    fun line near => ⟨_, ?_, Numeral.le_length_hex 3 _, filter_body _⟩,
    digitsShown_dumpBytes start _, ?_, ?_,
    fun last whole behind room => ⟨_, memory.dumpRange?_inside behind room, ?_⟩,
    memory.dumpRange?_all⟩
  · rw [getElem?_available, if_pos near]
  · rw [lines_dumpBytes, List.length_map, List.length_range, length]
  · rw [lines_dumpBytes, List.getElem?_map, length, List.getElem?_range near]
    rfl
  · rw [digitsShown_dumpBytes, Numeral.bytesOf_hexBytes]
  · rw [getLast_dumpBytes, length]
    omega
  · have count : last - start = (stop - start) + (last - stop) := by omega
    rw [memory.dumpRange?_inside (by omega) room, count, available_append,
      dumpBytes_append start _ (by rw [length]; exact whole), length, Nat.add_sub_cancel' ordered]

/-- A full line that begins at an odd address, and a single byte behind it. -/
theorem dump_reads_back_unaligned :
    let memory : Memory := ⟨Array.replicate 18 0xab⟩
    ∃ dump behind, memory.dumpRange? 1 17 = some dump ∧
      (Text.lines dump.toList).length = 1 ∧
      Numeral.bytesOf? (digitsShown 1 dump) = some (List.replicate 16 0xab) ∧
      dump.toList.getLast? = some '\n' ∧
      memory.dumpRange? 17 18 = some behind ∧
      memory.dumpRange? 1 18 = some (dump ++ behind) := by
  intro memory
  have size : memory.size = 18 := Array.size_replicate
  obtain ⟨dump, bytes, dumped, length, held, lines, -, -, readBack, ends, append, -⟩ :=
    dump_reads_back memory 1 17 (by decide) (by omega)
  obtain ⟨behind, next, both⟩ := append 18 (by decide) (by decide) (by omega)
  have same : bytes = List.replicate 16 0xab := by
    refine List.eq_replicate_iff.mpr ⟨length, fun byte member => ?_⟩
    obtain ⟨offset, found⟩ := List.getElem?_of_mem member
    have near := (List.getElem?_eq_some_iff.mp found).1
    rw [held offset (by omega), byte?, Array.getElem?_replicate, if_pos (by omega)] at found
    exact (Option.some.inj found).symm
  exact ⟨dump, behind, dumped, lines, same ▸ readBack, ends.mpr (by decide), next, both⟩

end ChipEight.Memory
