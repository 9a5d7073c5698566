/-
**A sprite is drawn at once.**

A drawing goes from row to row and from bit to bit, and every step reads the screen that the steps
before it left. What it leaves can be said without them:

* `Machine.cells`: the rows and bits of a sprite that memory holds;
* `Machine.cellTarget`: where a cell lands, by the registers before the drawing;
* `Machine.setCells`: the cells whose bit is set;
* `draw_at_once`: no two cells share a target, exactly the targets of the set cells change, and
  the flag and the number of lit pixels follow from the screen before the drawing.
-/

import Mathlib.Data.Finset.Card
import Mathlib.Data.Finset.Prod
import ChipEight.Proofs.Session.Sprites
import ChipEight.Proofs.SpriteCells

namespace ChipEight.Machine

/-! ### Cells -/

/-- The cells that a word draws: a row and one of its eight bits, counted from the left. -/
def cells (machine : Machine) (word : Word) : Finset (Nat × Nat) :=
  Finset.range (machine.rowsDrawn word) ×ˢ Finset.range 8

/-- The index of the pixel on which a cell lands. -/
def cellTarget (machine : Machine) (word : Word) (cell : Nat × Nat) : Nat :=
  let column := (machine.get word.x).toNat + cell.2
  let line := (machine.get word.y).toNat + cell.1
  if machine.variant.wrapSprites then line % 32 * 64 + column % 64
  else (column + line * 64) % 2048

/-- Whether memory holds a set bit for a cell. -/
def cellBit (machine : Machine) (cell : Nat × Nat) : Bool :=
  (machine.memory.byte? (machine.registers.index.toNat + cell.1)).any fun byte =>
    byte &&& (0x80 >>> UInt8.ofNat cell.2) != 0

/-- The cells that a word draws with a set bit. -/
def setCells (machine : Machine) (word : Word) : Finset (Nat × Nat) :=
  (machine.cells word).filter fun cell => machine.cellBit cell

/-- The set cells that land on a lit pixel. -/
def litCells (machine : Machine) (word : Word) : Finset (Nat × Nat) :=
  (machine.setCells word).filter fun cell =>
    machine.screen.pixel? (machine.cellTarget word cell) = some true

variable {machine : Machine} {word : Word}

/-- The rows that are drawn are those of the sprite that memory holds. -/
theorem lt_rowsDrawn_iff (row : Nat) :
    row < machine.rowsDrawn word ↔
      row < word.n ∧ machine.registers.index.toNat + row < machine.memory.size := by
  unfold rowsDrawn
  split <;> omega

theorem mem_cells_iff (cell : Nat × Nat) :
    cell ∈ machine.cells word ↔ cell.1 < machine.rowsDrawn word ∧ cell.2 < 8 := by
  rw [cells, Finset.mem_product, Finset.mem_range, Finset.mem_range]

theorem mem_setCells_iff {cell : Nat × Nat} :
    cell ∈ machine.setCells word ↔ cell.1 < machine.rowsDrawn word ∧ cell.2 < 8 ∧
      ∃ byte, machine.memory.byte? (machine.registers.index.toNat + cell.1) = some byte ∧
        Sprite.isSet byte cell.2 = true := by
  rw [setCells, Finset.mem_filter, mem_cells_iff, and_assoc]
  refine and_congr_right fun _ => and_congr_right fun inRow => ?_
  rw [cellBit]
  cases machine.memory.byte? (machine.registers.index.toNat + cell.1) with
  | none => simp
  | some byte => simp [Sprite.isSet_eq_mask byte inRow]

theorem cellTarget_eq (machine : Machine) (word : Word) (cell : Nat × Nat) :
    machine.cellTarget word cell = Sprite.target machine.variant.wrapSprites
      ((machine.get word.x).toNat + cell.2) ((machine.get word.y).toNat + cell.1) := by
  simp only [cellTarget, Sprite.target, Screen.index, Nat.add_comm (_ * Screen.width)]
  split
  · exact Nat.add_comm _ _
  · rfl

/-- Different cells land on different pixels, if no row is as far below as the screen is high. -/
theorem cellTarget_inj {cell other : Nat × Nat} (low : cell.1 < Screen.height)
    (otherLow : other.1 < Screen.height) (inRow : cell.2 < 8) (otherInRow : other.2 < 8)
    (same : machine.cellTarget word cell = machine.cellTarget word other) : cell = other := by
  rw [cellTarget_eq, cellTarget_eq] at same
  obtain ⟨rows, bits⟩ := Sprite.target_inj _ _ _ _ _ low otherLow inRow otherInRow same
  exact Prod.ext rows bits

theorem cellTarget_injOn : Set.InjOn (machine.cellTarget word) (machine.cells word) := by
  intro cell drawn other otherDrawn same
  obtain ⟨row, inRow⟩ := (mem_cells_iff cell).mp drawn
  obtain ⟨otherRow, otherInRow⟩ := (mem_cells_iff other).mp otherDrawn
  have low := ((lt_rowsDrawn_iff cell.1).mp row).1
  have otherLow := ((lt_rowsDrawn_iff other.1).mp otherRow).1
  have height : word.n < Screen.height := Nat.lt_trans word.n_lt (by decide)
  exact cellTarget_inj (Nat.lt_trans low height) (Nat.lt_trans otherLow height) inRow otherInRow
    same

/-- **The targets of the drawing** are those of the set cells. -/
theorem mem_spriteTargets_iff (index : Nat) :
    index ∈ machine.spriteTargets machine.registers.index.toNat word ↔
      ∃ cell ∈ machine.setCells word, machine.cellTarget word cell = index := by
  rw [spriteTargets, Sprite.mem_targets_iff]
  constructor
  · rintro ⟨row, byte, found, bit, inRow, set, lands⟩
    rw [Memory.getElem?_available] at found
    split at found
    · rename_i low
      have held := (Array.getElem?_eq_some_iff.mp found).1
      refine ⟨(row, bit), mem_setCells_iff.mpr ⟨(lt_rowsDrawn_iff row).mpr ⟨low, held⟩, inRow, byte,
        found, set⟩, ?_⟩
      rw [cellTarget_eq, lands]
    · cases found
  · rintro ⟨⟨row, bit⟩, member, lands⟩
    obtain ⟨drawn, inRow, byte, found, set⟩ := mem_setCells_iff.mp member
    refine ⟨row, byte, ?_, bit, inRow, set, ?_⟩
    · rw [Memory.getElem?_available, if_pos ((lt_rowsDrawn_iff row).mp drawn).1, found]
    · rw [← cellTarget_eq machine word (row, bit), lands]

theorem nodup_spriteTargets (start : Nat) : (machine.spriteTargets start word).Nodup := by
  refine Sprite.nodup_targets _ _ _ ?_
  have low := word.n_lt
  rw [Memory.length_available, Screen.height]
  omega

/-- Counting targets is counting set cells. -/
theorem card_setCells_filter (machine : Machine) (word : Word) (p : Nat → Bool) :
    ((machine.setCells word).filter fun cell => p (machine.cellTarget word cell)).card =
      (machine.spriteTargets machine.registers.index.toNat word).countP p := by
  have apart : Set.InjOn (machine.cellTarget word)
      ((machine.setCells word).filter fun cell => p (machine.cellTarget word cell)) := by
    refine cellTarget_injOn.mono fun cell member => ?_
    exact (Finset.mem_filter.mp (Finset.mem_filter.mp member).1).1
  have image : ((machine.setCells word).filter fun cell => p (machine.cellTarget word cell)).image
      (machine.cellTarget word) =
        ((machine.spriteTargets machine.registers.index.toNat word).filter p).toFinset := by
    ext index
    simp only [Finset.mem_image, Finset.mem_filter, List.mem_toFinset, List.mem_filter,
      mem_spriteTargets_iff]
    constructor
    · rintro ⟨cell, ⟨set, holds⟩, rfl⟩
      exact ⟨⟨cell, set, rfl⟩, holds⟩
    · rintro ⟨⟨cell, set, rfl⟩, holds⟩
      exact ⟨cell, ⟨set, holds⟩, rfl⟩
  rw [← Finset.card_image_of_injOn apart, image,
    List.toFinset_card_of_nodup ((nodup_spriteTargets _).filter p), List.countP_eq_length_filter]

theorem card_setCells :
    (machine.setCells word).card =
      (machine.spriteTargets machine.registers.index.toNat word).length := by
  simpa using machine.card_setCells_filter word fun _ => true

theorem card_litCells :
    (machine.litCells word).card =
      (machine.spriteTargets machine.registers.index.toNat word).countP
        (machine.screen.pixel? · = some true) := by
  rw [← card_setCells_filter]
  simp only [litCells, decide_eq_true_eq]

/-! ### The drawing -/

/-- A drawing collides if a set cell lands on a lit pixel. -/
theorem collides_iff_litCells :
    machine.screen.Collides (machine.spriteTargets machine.registers.index.toNat word) ↔
      (machine.litCells word).Nonempty := by
  rw [Screen.collides_iff_of_nodup _ (nodup_spriteTargets _)]
  simp only [mem_spriteTargets_iff, litCells, Finset.Nonempty, Finset.mem_filter]
  constructor
  · rintro ⟨index, ⟨cell, set, rfl⟩, lit⟩
    exact ⟨cell, set, lit⟩
  · rintro ⟨cell, set, lit⟩
    exact ⟨_, ⟨cell, set, rfl⟩, lit⟩

/-- **Drawing a sprite is one exclusive or.** No two cells land on the same pixel. Exactly those
pixels change on which a set cell lands; the flag is raised if one of them was lit, and is never
cleared; the number of lit pixels follows. Nothing else changes, and where memory ends before the
sprite does, all of this holds of the rows before the end. -/
theorem draw_at_once (machine : Machine) (word : Word)
    (full : machine.screen.size = Screen.standardSize) (family : word.family = 0xd) :
    let outcome := machine.execute word
    let after := outcome.machine
    outcome.answer = (if machine.rowsDrawn word = word.n then .ok () else .error .outOfBounds) ∧
      Set.InjOn (machine.cellTarget word) (machine.cells word) ∧
      (∀ index, after.screen.pixel? index ≠ machine.screen.pixel? index ↔
        ∃ cell ∈ machine.setCells word, machine.cellTarget word cell = index) ∧
      after.get Registers.flag =
        (if (machine.litCells word).Nonempty then 1 else machine.get Registers.flag) ∧
      after.screen.lit + 2 * (machine.litCells word).card =
        machine.screen.lit + (machine.setCells word).card ∧
      after = { machine.note word with
        screen := after.screen
        registers := machine.registers.set Registers.flag (after.get Registers.flag) } := by
  intro outcome after
  have inside := spriteTargets_inside full machine.registers.index.toNat word
  have nodup : (machine.spriteTargets machine.registers.index.toNat word).Nodup :=
    nodup_spriteTargets _
  have executed : outcome = _ := (execute_eq_draw family).trans (draw_full full)
  clear_value outcome
  subst executed
  refine ⟨rfl, cellTarget_injOn, fun index => ?_, ?_, ?_, ?_⟩
  · rw [← mem_spriteTargets_iff]
    exact machine.screen.pixel?_changed_iff nodup inside index
  · refine (Registers.get_flag_raiseFlagIf _ _).trans ?_
    simp only [decide_eq_true_eq, ← collides_iff_litCells]
    rfl
  · rw [card_litCells, card_setCells]
    exact machine.screen.lit_flipped nodup inside
  · exact congrArg (fun registers => { machine.note word with
      screen := machine.screen.flipped (machine.spriteTargets machine.registers.index.toNat word)
      registers }) (Registers.raiseFlagIf_eq_set _ _)

/-- A sprite of two rows, the second one behind the end of memory, drawn at the column that the flag
holds, on a pixel that is lit. -/
theorem draw_at_once_by_flag :
    let machine : Machine := { new (.ofSeed 0) with
      memory := ⟨#[0x80]⟩
      registers := Registers.blank.set Registers.flag 3
      screen := Screen.blank.flipped [3] }
    (machine.execute 0xdf12).answer = .error .outOfBounds ∧
      (machine.execute 0xdf12).machine.get Registers.flag = 1 ∧
      (machine.execute 0xdf12).machine.screen.pixel? 3 ≠ machine.screen.pixel? 3 ∧
      (machine.execute 0xdf12).machine.screen.lit + 2 = machine.screen.lit + 1 := by
  intro machine
  have full : machine.screen.size = Screen.standardSize :=
    (Screen.size_flipped _ _).trans Array.size_replicate
  have lit : machine.screen.pixel? 3 = some true := by
    refine (Screen.pixel?_flipped _ _ _).trans ?_
    rw [show Screen.blank.pixel? 3 = some false from Array.getElem?_replicate]
    rfl
  have target : machine.cellTarget 0xdf12 (0, 0) = 3 := by decide
  have set : machine.setCells 0xdf12 = {(0, 0)} := by decide
  have litSet : machine.litCells 0xdf12 = {(0, 0)} := by
    rw [litCells, set]
    exact Finset.filter_true_of_mem fun cell member => by
      rw [Finset.mem_singleton.mp member, target]
      exact lit
  obtain ⟨answer, -, changed, flag, number, -⟩ := draw_at_once machine 0xdf12 full (by decide)
  refine ⟨answer.trans (by decide), ?_, (changed 3).mpr ?_, ?_⟩
  · rwa [litSet, if_pos (Finset.singleton_nonempty _)] at flag
  · exact ⟨(0, 0), by rw [set]; decide, target⟩
  · rwa [litSet, set, Finset.card_singleton, Nat.mul_one] at number

end ChipEight.Machine
