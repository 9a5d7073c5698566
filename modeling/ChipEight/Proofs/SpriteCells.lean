/-
**The cells of a sprite, and the pixels that they flip.**

A cell of a sprite is a row of it and a bit of that row. On a screen of standard size a sprite that
is no higher than the screen never lands on itself, whichever way it runs on at the edges:

* `Sprite.target_inj`: different cells have different targets;
* `Sprite.mem_targets_iff`, `Sprite.nodup_targets`: the targets of a drawing are those of its set
  cells, each of them once.

So no pixel is flipped twice, and the law of drawing becomes that of a single exclusive or:

* `Screen.pixel?_changed_iff`: the pixels that change are the targets; on a dark screen, the targets
  are the pixels that are lit (`Screen.pixel?_flipped_erase`);
* `Screen.collides_iff_of_nodup`: a collision is a target that was lit;
* `Screen.lit_flipped`: what becomes of the number of lit pixels.
-/

import Mathlib.Data.List.Nodup
import Mathlib.Data.Nat.Bitwise
import Mathlib.Tactic.Common
import ChipEight.Proofs.Drawing

namespace ChipEight

namespace Sprite

/-- The bits of a row as masks, the leftmost one first. -/
theorem isSet_eq_mask (byte : UInt8) {bit : Nat} (inRow : bit < 8) :
    isSet byte bit = (byte &&& 0x80 >>> UInt8.ofNat bit != 0) := by
  have mask : ∀ bit < 8, ((0x80 : UInt8) >>> UInt8.ofNat bit).toNat = 2 ^ (7 - bit) := by decide
  rw [Bool.eq_iff_iff, bne_iff_ne, ne_eq, ← UInt8.toNat_inj, UInt8.toNat_and, mask bit inRow,
    Nat.and_two_pow, isSet]
  cases byte.toNat.testBit (7 - bit) <;> simp

/-! ### Targets of cells -/

/-- **Different cells of a sprite land on different pixels**, wherever the sprite is drawn. -/
theorem target_inj (wrap : Bool) (column line row other : Nat) {bit otherBit : Nat}
    (low : row < Screen.height) (otherLow : other < Screen.height) (inRow : bit < 8)
    (otherInRow : otherBit < 8)
    (same : target wrap (column + bit) (line + row) =
      target wrap (column + otherBit) (line + other)) :
    row = other ∧ bit = otherBit := by
  unfold Screen.height at low otherLow
  cases wrap with
  | true =>
    change (line + row) % 32 * 64 + (column + bit) % 64 =
      (line + other) % 32 * 64 + (column + otherBit) % 64 at same
    omega
  | false =>
    change ((line + row) * 64 + (column + bit)) % 2048 =
      ((line + other) * 64 + (column + otherBit)) % 2048 at same
    omega

theorem mem_setBits_iff (byte : UInt8) (bit : Nat) :
    bit ∈ setBits byte ↔ bit < 8 ∧ isSet byte bit = true := by
  rw [setBits, List.mem_filter, List.mem_range]

theorem mem_rowTargets_iff (wrap : Bool) (column line : Nat) (byte : UInt8) (index : Nat) :
    index ∈ rowTargets wrap column line byte ↔
      ∃ bit < 8, isSet byte bit = true ∧ target wrap (column + bit) line = index := by
  simp only [rowTargets, List.mem_map, mem_setBits_iff, and_assoc]

/-- **The targets of a sprite** are those of its set cells. -/
theorem mem_targets_iff (wrap : Bool) (column line : Nat) (rows : List UInt8) (index : Nat) :
    index ∈ targets wrap column line rows ↔
      ∃ row byte, rows[row]? = some byte ∧ ∃ bit < 8, isSet byte bit = true ∧
        target wrap (column + bit) (line + row) = index := by
  induction rows generalizing line with
  | nil => simp [targets]
  | cons first rest ih =>
    rw [targets, List.mem_append, mem_rowTargets_iff, ih]
    constructor
    · rintro (here | ⟨row, byte, found, below⟩)
      · exact ⟨0, first, rfl, here⟩
      · refine ⟨row + 1, byte, found, ?_⟩
        rwa [Nat.add_assoc, Nat.add_comm 1] at below
    · rintro ⟨_ | row, byte, found, cell⟩
      · cases found
        exact .inl cell
      · refine .inr ⟨row, byte, found, ?_⟩
        rwa [Nat.add_assoc, Nat.add_comm 1]

theorem nodup_rowTargets (wrap : Bool) (column line : Nat) (byte : UInt8) :
    (rowTargets wrap column line byte).Nodup := by
  refine List.Nodup.map_on ?_ (List.nodup_range.filter _)
  intro bit isBit other isOther same
  have inRow := ((mem_setBits_iff byte bit).mp isBit).1
  have otherInRow := ((mem_setBits_iff byte other).mp isOther).1
  exact (target_inj wrap column line 0 0 (by decide) (by decide) inRow otherInRow same).2

/-- **No pixel is a target twice.** -/
theorem nodup_targets (wrap : Bool) (column line : Nat) {rows : List UInt8}
    (low : rows.length ≤ Screen.height) : (targets wrap column line rows).Nodup := by
  induction rows generalizing line with
  | nil => exact List.nodup_nil
  | cons first rest ih =>
    rw [List.length_cons] at low
    refine List.Nodup.append (nodup_rowTargets wrap column line first) (ih (line + 1) (by omega)) ?_
    intro index here below
    obtain ⟨bit, inRow, -, target⟩ := (mem_rowTargets_iff _ _ _ _ _).mp here
    obtain ⟨row, byte, found, other, otherInRow, -, sameTarget⟩ :=
      (mem_targets_iff _ _ _ _ _).mp below
    have inRest := (List.getElem?_eq_some_iff.mp found).1
    rw [← sameTarget, Nat.add_assoc] at target
    obtain ⟨first, -⟩ :=
      target_inj wrap column line 0 (1 + row) (by decide) (by omega) inRow otherInRow target
    omega

end Sprite

namespace Screen

variable (screen : Screen) {indexes : List Nat}

/-! ### Flipping each pixel once at most -/

theorem exists_pixel {index : Nat} (inside : index < screen.size) :
    ∃ pixel, screen.pixel? index = some pixel :=
  ⟨_, Array.getElem?_eq_getElem inside⟩

/-- **The pixels that change are the targets.** -/
theorem pixel?_changed_iff (nodup : indexes.Nodup)
    (inside : ∀ index ∈ indexes, index < screen.size) (index : Nat) :
    (screen.flipped indexes).pixel? index ≠ screen.pixel? index ↔ index ∈ indexes := by
  rw [pixel?_flipped]
  by_cases member : index ∈ indexes
  · obtain ⟨pixel, held⟩ := screen.exists_pixel (inside index member)
    rw [held, List.count_eq_one_of_mem nodup member]
    simp [member]
  · rw [List.count_eq_zero_of_not_mem member]
    simp [member]

/-- Flipping pixels of a dark screen, each of them once, turns on exactly these. -/
theorem pixel?_flipped_erase (nodup : indexes.Nodup) (index : Nat) :
    (screen.erase.flipped indexes).pixel? index =
      if index < screen.size then some (decide (index ∈ indexes)) else none := by
  rw [pixel?_flipped, pixel?_erase]
  split
  · rw [Option.map_some, Bool.false_xor]
    by_cases member : index ∈ indexes
    · rw [List.count_eq_one_of_mem nodup member]
      simp [member]
    · rw [List.count_eq_zero_of_not_mem member]
      simp [member]
  · rfl

/-- A drawing that meets no pixel twice collides with the lit ones only. -/
theorem collides_iff_of_nodup (nodup : indexes.Nodup) :
    screen.Collides indexes ↔ ∃ index ∈ indexes, screen.pixel? index = some true := by
  refine exists_congr fun index => and_congr_right fun member => or_iff_left ?_
  rw [List.count_eq_one_of_mem nodup member]
  decide

/-! ### Lit pixels -/

/-- Flipping one pixel turns one on or one off. -/
theorem lit_flipped_singleton {index : Nat} (inside : index < screen.size) :
    (screen.flipped [index]).lit + (if screen.pixel? index = some true then 2 else 0) =
      screen.lit + 1 := by
  have toggled := screen.toggle?_inside inside
  unfold size at inside
  rw [toggle?, dif_pos inside, Option.some.injEq, Prod.mk.injEq] at toggled
  obtain ⟨flip, -⟩ := toggled
  have held : screen.pixel? index = some screen.pixels[index] := Array.getElem?_eq_getElem inside
  rw [← flip, held]
  unfold lit
  rw [Array.toList_set, List.count_set inside, Array.getElem_toList]
  cases pixel : screen.pixels[index] with
  | false => simp
  | true =>
    have present : true ∈ screen.pixels.toList := pixel ▸ Array.getElem_mem_toList inside
    have some := List.count_pos_iff.mpr present
    show screen.pixels.toList.count true - 1 + 0 + 2 = screen.pixels.toList.count true + 1
    omega

/-- **The number of lit pixels** after flipping some pixels, each of them once. -/
theorem lit_flipped (nodup : indexes.Nodup) (inside : ∀ index ∈ indexes, index < screen.size) :
    (screen.flipped indexes).lit + 2 * indexes.countP (screen.pixel? · = some true) =
      screen.lit + indexes.length := by
  induction indexes generalizing screen with
  | nil => rw [flipped_nil, List.countP_nil, List.length_nil]
  | cons index rest ih =>
    obtain ⟨notAgain, restNodup⟩ := List.nodup_cons.mp nodup
    have here := screen.lit_flipped_singleton (inside index List.mem_cons_self)
    have behind := ih (screen.flipped [index]) restNodup fun other member => by
      rw [size_flipped]
      exact inside other (List.mem_cons_of_mem _ member)
    have same : rest.countP ((screen.flipped [index]).pixel? · = some true) =
        rest.countP (screen.pixel? · = some true) := by
      refine List.countP_congr fun other member => ?_
      have different : other ≠ index := fun same => notAgain (same ▸ member)
      rw [pixel?_flipped, List.count_cons_of_ne different.symm]
      simp
    rw [flipped_flipped, List.singleton_append, same] at behind
    rw [List.countP_cons, List.length_cons]
    simp only [decide_eq_true_eq]
    by_cases lit : screen.pixel? index = some true
    · rw [if_pos lit] at here ⊢
      omega
    · rw [if_neg lit] at here ⊢
      omega

end Screen

end ChipEight
